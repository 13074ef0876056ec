/-
# Base64

The encoder, with padding, and the forgiving decoder of the scripting languages:
it skips characters that are not of the alphabet, stops at the padding that fills a
group, and refuses a text that ends inside a group.  An alphabet is any 64 digits
that can be told apart and are not the padding.

`decode_encode` says that the decoder undoes the encoder, by induction on the groups
of three bytes.
-/

import Mathlib.Data.List.Basic
import Mathlib.Data.List.DropRight
import Mathlib.Tactic.Common

namespace CognitiveEngine
namespace Machine
namespace Base64

/-- The digits of six bits, and their values. -/
structure Alphabet where
  digit : ℕ → Char
  value : Char → Option ℕ
  value_digit : ∀ n < 64, value (digit n) = some n
  value_pad : value '=' = none
  digit_ascii : ∀ n < 64, (digit n).toNat < 128

/-- The alphabet of `base64.b64encode`. -/
def standardDigits : List Char :=
  "ABCDEFGHIJKLMNOPQRSTUVWXYZabcdefghijklmnopqrstuvwxyz0123456789+/".toList

/-- A list of digits as an alphabet. -/
def Alphabet.ofDigits (digits : List Char)
    (hvalue : ∀ n < 64, digits.idxOf (digits.getD n '=') = n ∧ digits.getD n '=' ∈ digits)
    (hpad : '=' ∉ digits) (hascii : ∀ n < 64, (digits.getD n '=').toNat < 128) : Alphabet where
  digit n := digits.getD n '='
  value c := if c ∈ digits then some (digits.idxOf c) else none
  value_digit n hn := by rw [if_pos (hvalue n hn).2, (hvalue n hn).1]
  value_pad := if_neg hpad
  digit_ascii := hascii

/-- The standard alphabet. -/
def standard : Alphabet := .ofDigits standardDigits (by decide) (by decide) (by decide)

/-- The digits of `base64.urlsafe_b64encode`. -/
def urlsafeDigits : List Char :=
  "ABCDEFGHIJKLMNOPQRSTUVWXYZabcdefghijklmnopqrstuvwxyz0123456789-_".toList

/-- The alphabet of `base64.urlsafe_b64encode`, as it encodes. -/
def urlsafeOnly : Alphabet := .ofDigits urlsafeDigits (by decide) (by decide) (by decide)

theorem urlsafeDigits_mem : ∀ n < 64, urlsafeDigits.getD n '=' ∈ urlsafeDigits := by decide

/-- A character that is not among the digits is none. -/
theorem urlsafe_ne {c : Char} (hc : c ∉ urlsafeDigits) {n : ℕ} (hn : n < 64) :
    urlsafeOnly.digit n ≠ c :=
  fun h => hc (h ▸ urlsafeDigits_mem n hn)

/-- The alphabet of `base64.urlsafe_b64decode`, which takes these two digits as well. -/
def urlsafe : Alphabet where
  digit := urlsafeOnly.digit
  value c := if c = '+' then some 62 else if c = '/' then some 63 else urlsafeOnly.value c
  value_digit n hn := by
    rw [if_neg (urlsafe_ne (by decide) hn), if_neg (urlsafe_ne (by decide) hn),
      urlsafeOnly.value_digit n hn]
  value_pad := by rw [if_neg (by decide), if_neg (by decide), urlsafeOnly.value_pad]
  digit_ascii := urlsafeOnly.digit_ascii

variable (A : Alphabet)

/-- `base64.b64encode`. -/
def encode : List UInt8 → List Char
  | [] => []
  | [a] => [A.digit (a.toNat / 4), A.digit (a.toNat % 4 * 16), '=', '=']
  | [a, b] =>
      [A.digit (a.toNat / 4), A.digit (a.toNat % 4 * 16 + b.toNat / 16),
        A.digit (b.toNat % 16 * 4), '=']
  | a :: b :: c :: bytes =>
      A.digit (a.toNat / 4) :: A.digit (a.toNat % 4 * 16 + b.toNat / 16) ::
        A.digit (b.toNat % 16 * 4 + c.toNat / 64) :: A.digit (c.toNat % 64) :: encode bytes

/-- The decoder, with the number of digits read of the current group, the bits of the
last one that are left, and the number of paddings since. -/
def decodeFrom (group left pads : ℕ) : List Char → Option (List UInt8)
  | [] => if group = 0 then some [] else none
  | c :: cs =>
      if c = '=' then
        if 2 ≤ group then
          if 4 ≤ group + (pads + 1) then some [] else decodeFrom group left (pads + 1) cs
        else decodeFrom group left pads cs
      else
        match A.value c, group with
        | none, _ => decodeFrom group left pads cs
        | some v, 0 => decodeFrom 1 v 0 cs
        | some v, 1 => (decodeFrom 2 (v % 16) 0 cs).map (UInt8.ofNat (left * 4 + v / 16) :: ·)
        | some v, 2 => (decodeFrom 3 (v % 4) 0 cs).map (UInt8.ofNat (left * 16 + v / 4) :: ·)
        | some v, _ => (decodeFrom 0 0 0 cs).map (UInt8.ofNat (left * 64 + v) :: ·)

/-- `base64.b64decode`; a text that is not ASCII raises. -/
def decode (text : List Char) : Option (List UInt8) :=
  if text.all fun c => c.toNat < 128 then decodeFrom A 0 0 0 text else none

variable {A}

/-- A digit is not the padding. -/
theorem digit_ne_pad {n : ℕ} (hn : n < 64) : A.digit n ≠ '=' := by
  intro h
  have hvalue := A.value_digit n hn
  rw [h, A.value_pad] at hvalue
  exact absurd hvalue nofun

theorem decodeFrom_digit_zero {n left pads : ℕ} (hn : n < 64) (cs : List Char) :
    decodeFrom A 0 left pads (A.digit n :: cs) = decodeFrom A 1 n 0 cs := by
  simp [decodeFrom, digit_ne_pad hn, A.value_digit n hn]

theorem decodeFrom_digit_one {n left pads : ℕ} (hn : n < 64) (cs : List Char) :
    decodeFrom A 1 left pads (A.digit n :: cs)
      = (decodeFrom A 2 (n % 16) 0 cs).map (UInt8.ofNat (left * 4 + n / 16) :: ·) := by
  simp [decodeFrom, digit_ne_pad hn, A.value_digit n hn]

theorem decodeFrom_digit_two {n left pads : ℕ} (hn : n < 64) (cs : List Char) :
    decodeFrom A 2 left pads (A.digit n :: cs)
      = (decodeFrom A 3 (n % 4) 0 cs).map (UInt8.ofNat (left * 16 + n / 4) :: ·) := by
  simp [decodeFrom, digit_ne_pad hn, A.value_digit n hn]

theorem decodeFrom_digit_three {n left pads : ℕ} (hn : n < 64) (cs : List Char) :
    decodeFrom A 3 left pads (A.digit n :: cs)
      = (decodeFrom A 0 0 0 cs).map (UInt8.ofNat (left * 64 + n) :: ·) := by
  simp [decodeFrom, digit_ne_pad hn, A.value_digit n hn]

/-- A byte put together again from its bits. -/
theorem ofNat_eq_of_toNat {a : UInt8} {n : ℕ} (h : n = a.toNat) : UInt8.ofNat n = a := by
  rw [h, UInt8.ofNat_toNat]

/-- Between two groups, paddings are skipped. -/
theorem decodeFrom_pads (k : ℕ) : decodeFrom A 0 0 0 (List.replicate k '=') = some [] := by
  induction k with
  | zero => rfl
  | succ k ih =>
      rw [List.replicate_succ]
      simpa [decodeFrom] using ih

/-- The loop of the decoder undoes the encoder, group by group, and more paddings make no
difference. -/
theorem decodeFrom_encode (bytes : List UInt8) (k : ℕ) :
    decodeFrom A 0 0 0 (encode A bytes ++ List.replicate k '=') = some bytes := by
  induction bytes using encode.induct with
  | case1 => exact decodeFrom_pads k
  | case2 a =>
      have ha := a.toNat_lt
      rw [encode, List.cons_append, List.cons_append, decodeFrom_digit_zero (by omega),
        decodeFrom_digit_one (by omega), ofNat_eq_of_toNat (a := a) (by omega)]
      simp [decodeFrom]
  | case3 a b =>
      have ha := a.toNat_lt
      have hb := b.toNat_lt
      rw [encode, List.cons_append, List.cons_append, List.cons_append,
        decodeFrom_digit_zero (by omega), decodeFrom_digit_one (by omega),
        decodeFrom_digit_two (by omega), ofNat_eq_of_toNat (a := a) (by omega),
        ofNat_eq_of_toNat (a := b) (by omega)]
      simp [decodeFrom]
  | case4 a b c bytes ih =>
      have ha := a.toNat_lt
      have hb := b.toNat_lt
      have hc := c.toNat_lt
      rw [encode, List.cons_append, List.cons_append, List.cons_append, List.cons_append,
        decodeFrom_digit_zero (by omega), decodeFrom_digit_one (by omega),
        decodeFrom_digit_two (by omega), decodeFrom_digit_three (by omega), ih,
        ofNat_eq_of_toNat (a := a) (by omega), ofNat_eq_of_toNat (a := b) (by omega),
        ofNat_eq_of_toNat (a := c) (by omega)]
      rfl

/-- **An encoded text:** digits, and the paddings that fill the last group. -/
theorem exists_digits (bytes : List UInt8) :
    ∃ digits pads, encode A bytes = digits ++ List.replicate pads '=' ∧ pads < 3 ∧
      (digits.length + pads) % 4 = 0 ∧ ∀ c ∈ digits, ∃ n < 64, c = A.digit n := by
  induction bytes using encode.induct with
  | case1 => exact ⟨[], 0, rfl, by omega, rfl, by simp⟩
  | case2 a =>
      have ha := a.toNat_lt
      refine ⟨[A.digit (a.toNat / 4), A.digit (a.toNat % 4 * 16)], 2, rfl, by omega, by simp, ?_⟩
      simp only [List.forall_mem_cons]
      exact ⟨⟨_, by omega, rfl⟩, ⟨_, by omega, rfl⟩, by simp⟩
  | case3 a b =>
      have ha := a.toNat_lt
      have hb := b.toNat_lt
      refine ⟨[A.digit (a.toNat / 4), A.digit (a.toNat % 4 * 16 + b.toNat / 16),
        A.digit (b.toNat % 16 * 4)], 1, rfl, by omega, by simp, ?_⟩
      simp only [List.forall_mem_cons]
      exact ⟨⟨_, by omega, rfl⟩, ⟨_, by omega, rfl⟩, ⟨_, by omega, rfl⟩, by simp⟩
  | case4 a b c bytes ih =>
      have ha := a.toNat_lt
      have hb := b.toNat_lt
      have hc := c.toNat_lt
      obtain ⟨digits, pads, heq, hpads, hlength, hdigits⟩ := ih
      refine ⟨A.digit (a.toNat / 4) :: A.digit (a.toNat % 4 * 16 + b.toNat / 16) ::
        A.digit (b.toNat % 16 * 4 + c.toNat / 64) :: A.digit (c.toNat % 64) :: digits, pads, ?_,
        hpads, ?_, ?_⟩
      · rw [encode, heq]
        rfl
      · simp only [List.length_cons]
        omega
      · simp only [List.forall_mem_cons]
        exact ⟨⟨_, by omega, rfl⟩, ⟨_, by omega, rfl⟩, ⟨_, by omega, rfl⟩, ⟨_, by omega, rfl⟩,
          hdigits⟩

/-- An encoded text is ASCII. -/
theorem ascii_of_mem_encode (bytes : List UInt8) : ∀ c ∈ encode A bytes, c.toNat < 128 := by
  obtain ⟨digits, pads, heq, -, -, hdigits⟩ := exists_digits (A := A) bytes
  intro c hc
  rw [heq] at hc
  rcases List.mem_append.1 hc with hc | hc
  · obtain ⟨n, hn, rfl⟩ := hdigits c hc
    exact A.digit_ascii n hn
  · rw [List.eq_of_mem_replicate hc]
    decide

/-- **The decoder undoes the encoder.**  More paddings make no difference. -/
theorem decode_encode_append (bytes : List UInt8) (k : ℕ) :
    decode A (encode A bytes ++ List.replicate k '=') = some bytes := by
  rw [decode, if_pos, decodeFrom_encode]
  rw [List.all_append, Bool.and_eq_true, List.all_eq_true, List.all_eq_true]
  refine ⟨fun c hc => decide_eq_true (ascii_of_mem_encode bytes c hc), fun c hc => ?_⟩
  rw [List.eq_of_mem_replicate hc]
  decide

/-- The decoder undoes the encoder. -/
theorem decode_encode (bytes : List UInt8) : decode A (encode A bytes) = some bytes := by
  have h := decode_encode_append (A := A) bytes 0
  rwa [List.replicate_zero, List.append_nil] at h

/-! ### Without paddings -/

variable (A) in
/-- The encoded text without its paddings: `rstrip('=')`. -/
def stripped (bytes : List UInt8) : List Char := (encode A bytes).rdropWhile (· = '=')

/-- The text with paddings that fill its last group, four if it is full. -/
def padded (text : List Char) : List Char := text ++ List.replicate (4 - text.length % 4) '='

/-- Without its paddings an encoded text is its digits. -/
theorem exists_stripped (bytes : List UInt8) :
    ∃ pads, encode A bytes = stripped A bytes ++ List.replicate pads '=' ∧ pads < 3 ∧
      ((stripped A bytes).length + pads) % 4 = 0 ∧
      ∀ c ∈ stripped A bytes, ∃ n < 64, c = A.digit n := by
  obtain ⟨digits, pads, heq, hpads, hlength, hdigits⟩ := exists_digits (A := A) bytes
  have hstripped : stripped A bytes = digits := by
    rw [stripped, heq]
    clear heq hpads hlength
    induction pads with
    | zero =>
        rw [List.replicate_zero, List.append_nil, List.rdropWhile_eq_self_iff]
        intro hne hpad
        obtain ⟨n, hn, hlast⟩ := hdigits _ (List.getLast_mem hne)
        rw [decide_eq_true_iff, hlast] at hpad
        exact digit_ne_pad hn hpad
    | succ pads ih =>
        rw [List.replicate_succ', ← List.append_assoc, List.rdropWhile_concat_pos _ _ _ (by simp)]
        exact ih
  rw [hstripped]
  exact ⟨pads, heq, hpads, hlength, hdigits⟩

/-- **The paddings that are left out are put back.** -/
theorem decode_padded_stripped (bytes : List UInt8) :
    decode A (padded (stripped A bytes)) = some bytes := by
  obtain ⟨pads, heq, hpads, hlength, -⟩ := exists_stripped (A := A) bytes
  rw [padded]
  by_cases hzero : pads = 0
  · have hfour : 4 - (stripped A bytes).length % 4 = 4 := by omega
    rw [hzero, List.replicate_zero, List.append_nil] at heq
    rw [hfour, ← heq]
    exact decode_encode_append bytes 4
  · have hback : 4 - (stripped A bytes).length % 4 = pads := by omega
    rw [hback, ← heq]
    exact decode_encode bytes

end Base64
end Machine
end CognitiveEngine
