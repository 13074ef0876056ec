/-
# The literals of JSON texts

Numbers and strings as they stand in a JSON text, and how they are scanned: a number as
far as it goes, a string up to the quote that closes it.  Texts are written in ASCII, all
other characters as `\u` and four hexadecimal digits, those beyond U+FFFF as two of these.

A literal is scanned without looking at what follows it, if that is a delimiter
(`scanNumber_append`).  An integer and a string are scanned as what they were written for
(`scanNumber_intText`, `scanString_quoted`).
-/

import Mathlib.Data.List.TakeWhile
import Mathlib.Tactic.Common

namespace CognitiveEngine
namespace Machine
namespace JsonText

/-! ### Numbers -/

/-- A number as it is written: with its fraction and its exponent, if it has any. -/
structure NumberLiteral where
  integer : List Char
  frac : List Char
  exp : List Char
deriving DecidableEq

/-- A leading minus sign. -/
def scanSign : List Char → List Char × List Char
  | [] => ([], [])
  | c :: cs => if c = '-' then ([c], cs) else ([], c :: cs)

/-- `0`, or digits that do not start with one. -/
def scanWhole : List Char → Option (List Char × List Char)
  | [] => none
  | c :: cs =>
      if c = '0' then some ([c], cs)
      else if c.isDigit then some (c :: cs.takeWhile Char.isDigit, cs.dropWhile Char.isDigit)
      else none

/-- Digits, at least one. -/
def scanDigits (cs : List Char) : Option (List Char × List Char) :=
  if cs.takeWhile Char.isDigit = [] then none
  else some (cs.takeWhile Char.isDigit, cs.dropWhile Char.isDigit)

/-- A point and digits. -/
def scanFrac (cs : List Char) : List Char × List Char :=
  match cs with
  | [] => ([], [])
  | c :: rest =>
      match if c = '.' then scanDigits rest else none with
      | some (digits, rest') => (c :: digits, rest')
      | none => ([], c :: rest)

/-- The sign of an exponent. -/
def scanExpSign : List Char → List Char × List Char
  | [] => ([], [])
  | c :: cs => if c = '+' ∨ c = '-' then ([c], cs) else ([], c :: cs)

/-- An `e`, a sign and digits. -/
def scanExp (cs : List Char) : List Char × List Char :=
  match cs with
  | [] => ([], [])
  | c :: rest =>
      match if c = 'e' ∨ c = 'E' then scanDigits (scanExpSign rest).2 else none with
      | some (digits, rest') => (c :: (scanExpSign rest).1 ++ digits, rest')
      | none => ([], c :: rest)

/-- A number. -/
def scanNumber (cs : List Char) : Option (NumberLiteral × List Char) :=
  (scanWhole (scanSign cs).2).map fun whole =>
    let frac := scanFrac whole.2
    let exp := scanExp frac.2
    (⟨(scanSign cs).1 ++ whole.1, frac.1, exp.1⟩, exp.2)

/-- What may follow a value: nothing, or a delimiter. -/
def Delimited (rest : List Char) : Prop := ∀ c ∈ rest.head?, c = ',' ∨ c = ']' ∨ c = '}'

theorem delimited_nil : Delimited [] := by simp [Delimited]

theorem delimited_cons {c : Char} {rest : List Char} :
    Delimited (c :: rest) ↔ c = ',' ∨ c = ']' ∨ c = '}' := by simp [Delimited]

/-- Nothing or one of the delimiters. -/
theorem Delimited.cases {rest : List Char} (h : Delimited rest) :
    rest = [] ∨ ∃ tail, rest = ',' :: tail ∨ rest = ']' :: tail ∨ rest = '}' :: tail := by
  cases rest with
  | nil => exact .inl rfl
  | cons c tail =>
      rw [delimited_cons] at h
      refine .inr ⟨tail, ?_⟩
      rcases h with rfl | rfl | rfl
      · exact .inl rfl
      · exact .inr (.inl rfl)
      · exact .inr (.inr rfl)

/-- Adding to what is left of a scan. -/
def followed {α : Type} (rest : List Char) (p : α × List Char) : α × List Char :=
  (p.1, p.2 ++ rest)

section Append

variable {rest : List Char} (hrest : Delimited rest)

include hrest

theorem takeWhile_append (cs : List Char) :
    (cs ++ rest).takeWhile Char.isDigit = cs.takeWhile Char.isDigit := by
  induction cs with
  | nil => obtain rfl | ⟨tail, rfl | rfl | rfl⟩ := hrest.cases <;> rfl
  | cons c cs ih =>
      by_cases hc : c.isDigit
      · rw [List.cons_append, List.takeWhile_cons_of_pos hc, List.takeWhile_cons_of_pos hc, ih]
      · rw [List.cons_append, List.takeWhile_cons_of_neg hc, List.takeWhile_cons_of_neg hc]

theorem dropWhile_append (cs : List Char) :
    (cs ++ rest).dropWhile Char.isDigit = cs.dropWhile Char.isDigit ++ rest := by
  have happend : (cs ++ rest).takeWhile Char.isDigit ++ (cs ++ rest).dropWhile Char.isDigit
      = cs.takeWhile Char.isDigit ++ (cs.dropWhile Char.isDigit ++ rest) := by
    rw [List.takeWhile_append_dropWhile, ← List.append_assoc, List.takeWhile_append_dropWhile]
  rw [takeWhile_append hrest] at happend
  exact List.append_cancel_left happend

theorem scanDigits_append (cs : List Char) :
    scanDigits (cs ++ rest) = (scanDigits cs).map (followed rest) := by
  rw [scanDigits, scanDigits, takeWhile_append hrest, dropWhile_append hrest]
  split <;> rfl

theorem scanWhole_append (cs : List Char) :
    scanWhole (cs ++ rest) = (scanWhole cs).map (followed rest) := by
  cases cs with
  | nil => obtain rfl | ⟨tail, rfl | rfl | rfl⟩ := hrest.cases <;> rfl
  | cons c cs =>
      rw [List.cons_append, scanWhole, scanWhole, takeWhile_append hrest, dropWhile_append hrest]
      split
      · rfl
      · split <;> rfl

theorem scanFrac_append (cs : List Char) : scanFrac (cs ++ rest) = followed rest (scanFrac cs) := by
  cases cs with
  | nil => obtain rfl | ⟨tail, rfl | rfl | rfl⟩ := hrest.cases <;> rfl
  | cons c cs =>
      rw [List.cons_append, scanFrac, scanFrac]
      by_cases hc : c = '.'
      · rw [if_pos hc, if_pos hc, scanDigits_append hrest]
        cases scanDigits cs <;> rfl
      · rw [if_neg hc, if_neg hc]
        rfl

theorem scanExp_append (cs : List Char) : scanExp (cs ++ rest) = followed rest (scanExp cs) := by
  cases cs with
  | nil => obtain rfl | ⟨tail, rfl | rfl | rfl⟩ := hrest.cases <;> rfl
  | cons c cs =>
      rw [List.cons_append, scanExp, scanExp]
      by_cases hc : c = 'e' ∨ c = 'E'
      · have hsign : scanExpSign (cs ++ rest) = followed rest (scanExpSign cs) := by
          cases cs with
          | nil => obtain rfl | ⟨tail, rfl | rfl | rfl⟩ := hrest.cases <;> rfl
          | cons c cs =>
              rw [List.cons_append, scanExpSign, scanExpSign]
              split <;> rfl
        rw [if_pos hc, if_pos hc, hsign, followed, scanDigits_append hrest]
        cases scanDigits (scanExpSign cs).2 <;> rfl
      · rw [if_neg hc, if_neg hc]
        rfl

/-- **A number is scanned alike before a delimiter.** -/
theorem scanNumber_append (cs : List Char) :
    scanNumber (cs ++ rest) = (scanNumber cs).map (followed rest) := by
  have hsign : scanSign (cs ++ rest) = followed rest (scanSign cs) := by
    cases cs with
    | nil => obtain rfl | ⟨tail, rfl | rfl | rfl⟩ := hrest.cases <;> rfl
    | cons c cs =>
        rw [List.cons_append, scanSign, scanSign]
        split <;> rfl
  rw [scanNumber, hsign, followed, scanWhole_append hrest, scanNumber]
  cases scanWhole (scanSign cs).2 with
  | none => rfl
  | some whole =>
      simp only [Option.map_some, followed, scanFrac_append hrest, scanExp_append hrest]

end Append

/-- An integer as it is written. -/
def intText (n : ℤ) : List Char :=
  if n < 0 then '-' :: Nat.toDigits 10 n.natAbs else Nat.toDigits 10 n.natAbs

/-- The integer that is written. -/
def readInt (cs : List Char) : ℤ :=
  if (scanSign cs).1 = [] then Nat.ofDigitChars 10 (scanSign cs).2 0
  else -Nat.ofDigitChars 10 (scanSign cs).2 0

/-- The digits of a number start with a zero only if it is zero. -/
theorem eq_zero_of_toDigits {n : ℕ} {cs : List Char} (h : Nat.toDigits 10 n = '0' :: cs) :
    n = 0 := by
  induction n using Nat.strong_induction_on generalizing cs with
  | _ n ih =>
      by_cases hn : n < 10
      · rw [Nat.toDigits_of_lt_base hn, List.cons.injEq] at h
        exact Nat.digitChar_eq_zero.1 h.1
      · rw [Nat.toDigits_of_base_le (by omega) (by omega)] at h
        obtain ⟨c, front, hfront⟩ := List.exists_cons_of_ne_nil (Nat.toDigits_ne_nil (n := n / 10) (b := 10))
        rw [hfront, List.cons_append, List.cons.injEq] at h
        have hzero := ih (n / 10) (by omega) (h.1 ▸ hfront)
        omega

/-- The digits of a number are scanned as they are. -/
theorem scanWhole_toDigits (n : ℕ) :
    scanWhole (Nat.toDigits 10 n) = some (Nat.toDigits 10 n, []) := by
  obtain ⟨c, cs, hdigits⟩ := List.exists_cons_of_ne_nil (Nat.toDigits_ne_nil (n := n) (b := 10))
  have hall : ∀ d ∈ c :: cs, d.isDigit :=
    fun d hd => Nat.isDigit_of_mem_toDigits (by omega) (by omega) (hdigits ▸ hd)
  rw [List.forall_mem_cons] at hall
  rw [hdigits, scanWhole]
  by_cases hc : c = '0'
  · subst hc
    have hzero := eq_zero_of_toDigits hdigits
    subst hzero
    rw [Nat.toDigits_zero, List.cons.injEq] at hdigits
    rw [if_pos rfl, ← hdigits.2]
  · rw [if_neg hc, if_pos hall.1, List.takeWhile_eq_self_iff.2 hall.2,
      List.dropWhile_eq_nil_iff.2 hall.2]

theorem scanSign_toDigits (n : ℕ) :
    scanSign (Nat.toDigits 10 n) = ([], Nat.toDigits 10 n) := by
  obtain ⟨c, cs, hdigits⟩ := List.exists_cons_of_ne_nil (Nat.toDigits_ne_nil (n := n) (b := 10))
  have hc : c ≠ '-' := by
    rintro rfl
    have hdigit : ('-').isDigit :=
      Nat.isDigit_of_mem_toDigits (by omega) (by omega) (hdigits ▸ List.mem_cons_self)
    exact absurd hdigit (by decide)
  rw [hdigits, scanSign, if_neg hc]

/-- **An integer is scanned as it is written.** -/
theorem scanNumber_intText (n : ℤ) :
    scanNumber (intText n) = some (⟨intText n, [], []⟩, []) := by
  rw [scanNumber, intText]
  by_cases hn : n < 0
  · rw [if_pos hn, scanSign, if_pos rfl]
    dsimp only
    rw [scanWhole_toDigits]
    rfl
  · rw [if_neg hn, scanSign_toDigits]
    dsimp only
    rw [scanWhole_toDigits]
    rfl

/-- **An integer is read as it was.** -/
theorem readInt_intText (n : ℤ) : readInt (intText n) = n := by
  rw [readInt, intText]
  by_cases hn : n < 0
  · rw [if_pos hn, scanSign, if_pos rfl]
    dsimp only
    rw [if_neg (List.cons_ne_nil _ _), Nat.ofDigitChars_ten_toDigits]
    omega
  · rw [if_neg hn, scanSign_toDigits]
    dsimp only
    rw [if_pos rfl, Nat.ofDigitChars_ten_toDigits]
    omega

/-! ### Strings -/

/-- The characters with an escape of their own. -/
def shortEscapes : List (Char × Char) :=
  [('"', '"'), ('\\', '\\'), ('\n', 'n'), ('\r', 'r'), ('\t', 't'), ('\x0c', 'f'), ('\x08', 'b')]

/-- Four hexadecimal digits. -/
def hex4 (n : ℕ) : List Char :=
  [Nat.digitChar (n / 4096), Nat.digitChar (n / 256 % 16), Nat.digitChar (n / 16 % 16),
    Nat.digitChar (n % 16)]

/-- `\u` and a number. -/
def unicodeEscape (n : ℕ) : List Char := '\\' :: 'u' :: hex4 n

/-- A character of a string. -/
def escapeChar (c : Char) : List Char :=
  match shortEscapes.lookup c with
  | some e => ['\\', e]
  | none =>
      let n := c.toNat
      if 0x20 ≤ n ∧ n ≤ 0x7E then [c]
      else if n < 0x10000 then unicodeEscape n
      else unicodeEscape (0xD800 + (n - 0x10000) / 1024) ++
        unicodeEscape (0xDC00 + (n - 0x10000) % 1024)

/-- A string as it is written. -/
def quoted (text : List Char) : List Char := '"' :: text.flatMap escapeChar ++ ['"']

/-- The value of a hexadecimal digit. -/
def hexValue (c : Char) : Option ℕ :=
  if c.isDigit then some (c.toNat - 48)
  else if 'a' ≤ c ∧ c ≤ 'f' then some (c.toNat - 87)
  else if 'A' ≤ c ∧ c ≤ 'F' then some (c.toNat - 55)
  else none

/-- Four hexadecimal digits. -/
def scanHex4 : List Char → Option (ℕ × List Char)
  | a :: b :: c :: d :: rest => do
      let a ← hexValue a
      let b ← hexValue b
      let c ← hexValue c
      let d ← hexValue d
      return (((a * 16 + b) * 16 + c) * 16 + d, rest)
  | _ => none

/-- What follows `\u`, if that comes first. -/
def afterUnicode : List Char → Option (List Char)
  | a :: b :: rest => if a = '\\' ∧ b = 'u' then some rest else none
  | _ => none

/-- What follows `\u`: a character, or the first half of one and the other half.  A half
that stands alone is no character of a text. -/
def scanUnicode (cs : List Char) : Option (Char × List Char) := do
  let (n, rest) ← scanHex4 cs
  if 0xD800 ≤ n ∧ n ≤ 0xDBFF then
    let (m, rest) ← afterUnicode rest >>= scanHex4
    if 0xDC00 ≤ m ∧ m ≤ 0xDFFF then
      some (Char.ofNat (0x10000 + (n - 0xD800) * 1024 + (m - 0xDC00)), rest)
    else none
  else if 0xDC00 ≤ n ∧ n ≤ 0xDFFF then none
  else some (Char.ofNat n, rest)

/-- What follows a backslash. -/
def scanEscape : List Char → Option (Char × List Char)
  | [] => none
  | c :: rest =>
      if c = 'u' then scanUnicode rest
      else if c = '/' then some (c, rest)
      else (shortEscapes.find? (·.2 = c)).map fun e => (e.1, rest)

/-- A character of a string; the control characters stand only as escapes. -/
def scanChar : List Char → Option (Char × List Char)
  | [] => none
  | c :: rest =>
      if c = '\\' then scanEscape rest
      else if c.toNat < 0x20 then none
      else some (c, rest)

/-- What follows the opening quote of a string, of at most as many characters. -/
def scanString : ℕ → List Char → Option (List Char × List Char)
  | 0, _ => none
  | _ + 1, [] => none
  | n + 1, c :: cs =>
      if c = '"' then some ([], cs)
      else do
        let (first, rest) ← scanChar (c :: cs)
        let (text, rest) ← scanString n rest
        return (first :: text, rest)

theorem hexValue_digitChar : ∀ n < 16, hexValue (Nat.digitChar n) = some n := by decide

theorem scanHex4_hex4 {n : ℕ} (hn : n < 65536) (rest : List Char) :
    scanHex4 (hex4 n ++ rest) = some (n, rest) := by
  rw [hex4, List.cons_append, List.cons_append, List.cons_append, List.cons_append,
    List.nil_append, scanHex4, hexValue_digitChar _ (by omega), hexValue_digitChar _ (by omega),
    hexValue_digitChar _ (by omega), hexValue_digitChar _ (by omega)]
  have hvalue : ((n / 4096 * 16 + n / 256 % 16) * 16 + n / 16 % 16) * 16 + n % 16 = n := by omega
  simp [hvalue]

/-- What a short escape stands for is what it is scanned as. -/
theorem scanEscape_shortEscapes :
    ∀ p ∈ shortEscapes, ∀ rest, scanEscape (p.2 :: rest) = some (p.1, rest) := by
  simp only [shortEscapes, List.forall_mem_cons]
  exact ⟨fun _ => rfl, fun _ => rfl, fun _ => rfl, fun _ => rfl, fun _ => rfl, fun _ => rfl,
    fun _ => rfl, fun _ h => absurd h List.not_mem_nil⟩

/-- A number that is no half of a character. -/
theorem scanUnicode_hex4 {n : ℕ} (hn : n < 65536) (hhalf : n < 0xD800 ∨ 0xDFFF < n)
    (rest : List Char) : scanUnicode (hex4 n ++ rest) = some (Char.ofNat n, rest) := by
  rw [scanUnicode, scanHex4_hex4 hn, Option.bind_eq_bind, Option.bind_some]
  dsimp only
  rw [if_neg (by omega), if_neg (by omega)]

/-- The two halves of a character. -/
theorem scanUnicode_halves {n m : ℕ} (hn : n < 0x400) (hm : m < 0x400) (rest : List Char) :
    scanUnicode (hex4 (0xD800 + n) ++ (unicodeEscape (0xDC00 + m) ++ rest))
      = some (Char.ofNat (0x10000 + n * 1024 + m), rest) := by
  rw [scanUnicode, scanHex4_hex4 (by omega), Option.bind_eq_bind, Option.bind_some]
  dsimp only
  have hhalf : afterUnicode (unicodeEscape (0xDC00 + m) ++ rest)
      = some (hex4 (0xDC00 + m) ++ rest) := rfl
  rw [if_pos (by omega), hhalf, Option.bind_eq_bind, Option.bind_some, scanHex4_hex4 (by omega),
    Option.bind_some]
  dsimp only
  rw [if_pos (by omega), Nat.add_sub_cancel_left, Nat.add_sub_cancel_left]

/-- **How a character is written:** with an escape of its own, as itself, or as one or two
numbers. -/
theorem escapeChar_cases (c : Char) :
    (∃ e, (c, e) ∈ shortEscapes ∧ escapeChar c = ['\\', e]) ∨
    (c ≠ '"' ∧ c ≠ '\\' ∧ 0x20 ≤ c.toNat ∧ c.toNat ≤ 0x7E ∧ escapeChar c = [c]) ∨
    (c.toNat < 0x10000 ∧ escapeChar c = unicodeEscape c.toNat) ∨
    (0x10000 ≤ c.toNat ∧ escapeChar c = unicodeEscape (0xD800 + (c.toNat - 0x10000) / 1024) ++
      unicodeEscape (0xDC00 + (c.toNat - 0x10000) % 1024)) := by
  rw [escapeChar]
  cases hlookup : shortEscapes.lookup c with
  | some e =>
      refine .inl ⟨e, ?_, rfl⟩
      obtain ⟨front, back, heq, -⟩ := List.lookup_eq_some_iff.1 hlookup
      rw [heq]
      simp
  | none =>
      have hnone := List.lookup_eq_none_iff.1 hlookup
      simp only [shortEscapes, List.forall_mem_cons, bne_iff_ne] at hnone
      refine .inr ?_
      dsimp only
      by_cases hplain : 0x20 ≤ c.toNat ∧ c.toNat ≤ 0x7E
      · rw [if_pos hplain]
        exact .inl ⟨hnone.1, hnone.2.1, hplain.1, hplain.2, rfl⟩
      · rw [if_neg hplain]
        by_cases hshort : c.toNat < 0x10000
        · rw [if_pos hshort]
          exact .inr (.inl ⟨hshort, rfl⟩)
        · rw [if_neg hshort]
          exact .inr (.inr ⟨Nat.not_lt.1 hshort, rfl⟩)

/-- A character as it is written is scanned as it was, and starts with no quote. -/
theorem scanChar_escapeChar (c : Char) (rest : List Char) :
    scanChar (escapeChar c ++ rest) = some (c, rest) ∧ (escapeChar c).head? ≠ some '"' ∧
      escapeChar c ≠ [] := by
  have hbounds : c.toNat < 0xD800 ∨ (0xDFFF < c.toNat ∧ c.toNat < 0x110000) := c.valid
  rcases escapeChar_cases c with ⟨e, he, heq⟩ | ⟨hquote, hslash, hlower, -, heq⟩ |
    ⟨hn, heq⟩ | ⟨hn, heq⟩ <;> rw [heq]
  · refine ⟨?_, by simp, by simp⟩
    exact scanEscape_shortEscapes _ he rest
  · refine ⟨?_, by simpa using hquote, by simp⟩
    rw [List.singleton_append, scanChar, if_neg hslash, if_neg (by omega)]
  · refine ⟨?_, by simp [unicodeEscape], by simp [unicodeEscape]⟩
    have hscan := scanUnicode_hex4 hn (by omega) rest
    rw [Char.ofNat_toNat] at hscan
    exact hscan
  · refine ⟨?_, by simp [unicodeEscape], by simp [unicodeEscape]⟩
    have hscan := scanUnicode_halves (n := (c.toNat - 0x10000) / 1024)
      (m := (c.toNat - 0x10000) % 1024) (by omega) (by omega) rest
    have hvalue : 0x10000 + (c.toNat - 0x10000) / 1024 * 1024 + (c.toNat - 0x10000) % 1024
        = c.toNat := by omega
    rw [hvalue, Char.ofNat_toNat] at hscan
    rw [List.append_assoc]
    exact hscan

/-- A string is written with at least one character for each of its own. -/
theorem length_le_flatMap_escapeChar (text : List Char) :
    text.length ≤ (text.flatMap escapeChar).length := by
  induction text with
  | nil => exact le_rfl
  | cons c text ih =>
      have hpos := List.length_pos_iff.2 (scanChar_escapeChar c []).2.2
      rw [List.flatMap_cons, List.length_append, List.length_cons]
      omega

/-- **A string is scanned as what it was written for.** -/
theorem scanString_quoted {n : ℕ} {text : List Char} (hn : text.length < n) (rest : List Char) :
    scanString n (text.flatMap escapeChar ++ '"' :: rest) = some (text, rest) := by
  induction text generalizing n with
  | nil =>
      obtain ⟨n, rfl⟩ := Nat.exists_eq_add_one_of_ne_zero (Nat.ne_zero_of_lt hn)
      rfl
  | cons c text ih =>
      obtain ⟨n, rfl⟩ := Nat.exists_eq_add_one_of_ne_zero (Nat.ne_zero_of_lt hn)
      have hlength : text.length < n := by
        rw [List.length_cons] at hn
        omega
      rw [List.flatMap_cons, List.append_assoc]
      obtain ⟨hscan, hhead, hne⟩ := scanChar_escapeChar c (text.flatMap escapeChar ++ '"' :: rest)
      obtain ⟨first, more, heq⟩ := List.exists_cons_of_ne_nil hne
      rw [heq] at hscan hhead ⊢
      have hquote : first ≠ '"' := fun hfirst => hhead (congrArg some hfirst)
      rw [List.cons_append] at hscan ⊢
      rw [scanString, if_neg hquote, hscan, Option.bind_eq_bind, Option.bind_some]
      dsimp only
      rw [ih hlength]
      rfl

/-! ### No control characters -/

/-- A character that is no control character below the blank. -/
def IsPrinted (c : Char) : Prop := 0x20 ≤ c.toNat

instance (c : Char) : Decidable (IsPrinted c) := Nat.decLe _ _

theorem isPrinted_digitChar (n : ℕ) : IsPrinted (Nat.digitChar n) := by
  by_cases hn : n < 16
  · have hall : ∀ n < 16, 0x20 ≤ (Nat.digitChar n).toNat := by decide
    exact hall n hn
  · rw [Nat.digitChar_eq_star.2 (Nat.not_lt.1 hn)]
    decide

/-- A number is written without them. -/
theorem isPrinted_intText (n : ℤ) : ∀ c ∈ intText n, IsPrinted c := by
  have hdigits : ∀ c ∈ Nat.toDigits 10 n.natAbs, IsPrinted c := by
    intro c hc
    have hdigit := Nat.isDigit_of_mem_toDigits (by omega) (by omega) hc
    exact Nat.le_trans (Nat.le_of_ble_eq_true rfl) (Char.isDigit_iff_toNat.1 hdigit).1
  rw [intText]
  split
  · exact List.forall_mem_cons.2 ⟨by decide, hdigits⟩
  · exact hdigits

/-- **A string is written without them:** they are all escaped. -/
theorem isPrinted_quoted (text : List Char) : ∀ c ∈ quoted text, IsPrinted c := by
  have hunicode : ∀ n, ∀ c ∈ unicodeEscape n, IsPrinted c := by
    intro n
    rw [unicodeEscape, hex4]
    refine List.forall_mem_cons.2 ⟨by decide, List.forall_mem_cons.2 ⟨by decide, ?_⟩⟩
    simp only [List.forall_mem_cons, isPrinted_digitChar, true_and]
    exact fun c hc => absurd hc List.not_mem_nil
  have hshort : ∀ p ∈ shortEscapes, 0x20 ≤ p.2.toNat := by decide
  have hescape : ∀ c, ∀ d ∈ escapeChar c, IsPrinted d := by
    intro c
    rcases escapeChar_cases c with ⟨e, he, heq⟩ | ⟨-, -, hlower, -, heq⟩ | ⟨-, heq⟩ | ⟨-, heq⟩ <;>
      rw [heq]
    · exact List.forall_mem_cons.2 ⟨by decide, List.forall_mem_singleton.2 (hshort _ he)⟩
    · exact List.forall_mem_singleton.2 hlower
    · exact hunicode _
    · exact List.forall_mem_append.2 ⟨hunicode _, hunicode _⟩
  have hquote : IsPrinted '"' := by decide
  rw [quoted, List.forall_mem_append, List.forall_mem_cons, List.forall_mem_singleton]
  refine ⟨⟨hquote, fun d hd => ?_⟩, hquote⟩
  obtain ⟨c, -, hc⟩ := List.mem_flatMap.1 hd
  exact hescape c d hc

end JsonText
end Machine
end CognitiveEngine
