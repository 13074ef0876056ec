/-
# UTF-8, encoded and decoded in pieces

The encoder, and the decoder that never fails: what is not part of a character is
replaced by U+FFFD, one for every byte that cannot begin a character and one for
every character that is broken off.  The decoder is a machine that reads one byte at
a time; its state is the character it is in the middle of.

A text that is cut at the borders of its characters is decoded piece by piece
(`decode_encode_append`).  Cut elsewhere, the character is lost on both sides
(`decode_cut`, `decode_cons_continuation`).  A newline ends whatever was broken off
(`decode_newline`).
-/

import Mathlib.Data.List.Basic
import Mathlib.Tactic.Common

namespace CognitiveEngine
namespace Machine
namespace Utf8

/-! ### Encoding -/

/-- The bytes of a character. -/
def encodeChar (c : Char) : List UInt8 :=
  let n := c.toNat
  if n < 0x80 then [.ofNat n]
  else if n < 0x800 then [.ofNat (0xC0 + n / 64), .ofNat (0x80 + n % 64)]
  else if n < 0x10000 then
    [.ofNat (0xE0 + n / 4096), .ofNat (0x80 + n / 64 % 64), .ofNat (0x80 + n % 64)]
  else
    [.ofNat (0xF0 + n / 262144), .ofNat (0x80 + n / 4096 % 64), .ofNat (0x80 + n / 64 % 64),
      .ofNat (0x80 + n % 64)]

/-- The bytes of a text. -/
def encode (text : List Char) : List UInt8 := text.flatMap encodeChar

@[simp] theorem encode_nil : encode [] = [] := rfl

@[simp] theorem encode_cons (c : Char) (text : List Char) :
    encode (c :: text) = encodeChar c ++ encode text := List.flatMap_cons

@[simp] theorem encode_append (text text' : List Char) :
    encode (text ++ text') = encode text ++ encode text' := List.flatMap_append

/-- A byte that continues a character. -/
def IsContinuation (b : UInt8) : Prop := 0x80 ≤ b.toNat ∧ b.toNat < 0xC0

/-! ### Decoding -/

/-- U+FFFD. -/
def replacement : Char := Char.ofNat 0xFFFD

/-- A character of which some bytes have been read. -/
structure Pending where
  needed : ℕ
  codePoint : ℕ
  lower : ℕ
  upper : ℕ
  lower_ge : 0x80 ≤ lower

/-- The character the decoder is in the middle of, if it is. -/
abbrev State : Type := Option Pending

/-- A byte between two characters. -/
def begin (n : ℕ) : List Char × State :=
  if n < 0x80 then ([Char.ofNat n], none)
  else if 0xC2 ≤ n ∧ n ≤ 0xDF then ([], some ⟨1, n - 0xC0, 0x80, 0xBF, Nat.le_refl _⟩)
  else if 0xE0 ≤ n ∧ n ≤ 0xEF then
    ([], some ⟨2, n - 0xE0, if n = 0xE0 then 0xA0 else 0x80, if n = 0xED then 0x9F else 0xBF,
      by split <;> omega⟩)
  else if 0xF0 ≤ n ∧ n ≤ 0xF4 then
    ([], some ⟨3, n - 0xF0, if n = 0xF0 then 0x90 else 0x80, if n = 0xF4 then 0x8F else 0xBF,
      by split <;> omega⟩)
  else ([replacement], none)

/-- One byte: what it adds to the text, and the state after it. -/
def step : State → UInt8 → List Char × State
  | none, b => begin b.toNat
  | some p, b =>
      let n := b.toNat
      if p.lower ≤ n ∧ n ≤ p.upper then
        let codePoint := p.codePoint * 64 + (n - 0x80)
        if p.needed ≤ 1 then ([Char.ofNat codePoint], none)
        else ([], some ⟨p.needed - 1, codePoint, 0x80, 0xBF, Nat.le_refl _⟩)
      else (replacement :: (begin n).1, (begin n).2)

/-- Some bytes. -/
def run : State → List UInt8 → List Char × State
  | s, [] => ([], s)
  | s, b :: bs => ((step s b).1 ++ (run (step s b).2 bs).1, (run (step s b).2 bs).2)

/-- The end of the bytes. -/
def flush : State → List Char
  | none => []
  | some _ => [replacement]

/-- The text of some bytes. -/
def decode (bytes : List UInt8) : List Char := (run none bytes).1 ++ flush (run none bytes).2

theorem run_append (s : State) (bs bs' : List UInt8) :
    run s (bs ++ bs') = ((run s bs).1 ++ (run (run s bs).2 bs').1, (run (run s bs).2 bs').2) := by
  induction bs generalizing s with
  | nil => rfl
  | cons b bs ih => simp [run, ih]

/-- After bytes that leave no character open, the decoder starts afresh. -/
theorem decode_append_of_run {bs : List UInt8} {text : List Char} (h : run none bs = (text, none))
    (bs' : List UInt8) : decode (bs ++ bs') = text ++ decode bs' := by
  rw [decode, run_append, h, decode, List.append_assoc]

/-! ### Characters, whole and cut -/

theorem toNat_ofNat_of_lt {n : ℕ} (h : n < 256) : (UInt8.ofNat n).toNat = n := by
  rw [UInt8.toNat_ofNat']
  exact Nat.mod_eq_of_lt h

/-- The code point of a character is no surrogate. -/
theorem toNat_bounds (c : Char) : c.toNat < 0xD800 ∨ (0xDFFF < c.toNat ∧ c.toNat < 0x110000) :=
  c.valid

/-- A byte that continues the character the decoder is in. -/
theorem step_some {p : Pending} {m : ℕ} (hm : m < 64) (hlower : p.lower ≤ 0x80 + m)
    (hupper : 0x80 + m ≤ p.upper) :
    step (some p) (UInt8.ofNat (0x80 + m))
      = if p.needed ≤ 1 then ([Char.ofNat (p.codePoint * 64 + m)], none)
        else ([], some ⟨p.needed - 1, p.codePoint * 64 + m, 0x80, 0xBF, Nat.le_refl _⟩) := by
  have hbyte : (UInt8.ofNat (0x80 + m)).toNat = 0x80 + m := toNat_ofNat_of_lt (by omega)
  rw [step, hbyte, if_pos ⟨hlower, hupper⟩, Nat.add_sub_cancel_left]

/-- The byte that continues a character with six bits. -/
def continuation (m : ℕ) : UInt8 := .ofNat (0x80 + m)

theorem isContinuation_continuation {m : ℕ} (hm : m < 64) : IsContinuation (continuation m) := by
  rw [IsContinuation, continuation, toNat_ofNat_of_lt (by omega)]
  omega

/-- The six bits fit after what has been read of the character. -/
def Pending.Fits (p : Pending) (ms : List ℕ) : Prop :=
  (∀ m ∈ ms, m < 64) ∧ ∀ m ∈ ms.head?, p.lower ≤ 0x80 + m ∧ 0x80 + m ≤ p.upper

/-- **The bytes after the first.**  As many as are needed make up the character, and
fewer leave it open. -/
theorem run_continuations {p : Pending} {ms : List ℕ} (hfits : p.Fits ms) :
    (ms ≠ [] → ms.length = p.needed → run (some p) (ms.map continuation)
      = ([Char.ofNat (ms.foldl (fun codePoint m => codePoint * 64 + m) p.codePoint)], none)) ∧
    (ms.length < p.needed → ∃ p', run (some p) (ms.map continuation) = ([], some p')) := by
  induction ms generalizing p with
  | nil => exact ⟨fun h => absurd rfl h, fun _ => ⟨p, rfl⟩⟩
  | cons m ms ih =>
      obtain ⟨hlt, hhead⟩ := hfits
      rw [List.forall_mem_cons] at hlt
      obtain ⟨hlower, hupper⟩ := hhead m rfl
      have hstep := step_some hlt.1 hlower hupper
      rw [List.map_cons, run, continuation, hstep]
      by_cases hneeded : p.needed ≤ 1
      · rw [if_pos hneeded]
        refine ⟨fun _ hlen => ?_, fun hlen => ?_⟩
        · have hnil : ms = [] := List.length_eq_zero_iff.1 (by rw [List.length_cons] at hlen; omega)
          rw [hnil]
          rfl
        · rw [List.length_cons] at hlen
          omega
      · rw [if_neg hneeded]
        have hrest : Pending.Fits ⟨p.needed - 1, p.codePoint * 64 + m, 0x80, 0xBF, Nat.le_refl _⟩ ms :=
          ⟨hlt.2, fun m' hm' => by
            have := hlt.2 m' (List.mem_of_mem_head? hm')
            show 0x80 ≤ 0x80 + m' ∧ 0x80 + m' ≤ 0xBF
            omega⟩
        obtain ⟨hwhole, hpart⟩ := ih hrest
        refine ⟨fun _ hlen => ?_, fun hlen => ?_⟩
        · rw [List.length_cons] at hlen
          have hne : ms ≠ [] := by
            rintro rfl
            simp at hlen
            omega
          have := hwhole hne (by show ms.length = p.needed - 1; omega)
          rw [this]
          rfl
        · rw [List.length_cons] at hlen
          obtain ⟨p', hp'⟩ := hpart (by show ms.length < p.needed - 1; omega)
          exact ⟨p', by rw [hp']; rfl⟩

/-- **The bytes of a character:** one, or a first one that opens it and as many more as
it needs. -/
theorem encodeChar_cases (c : Char) :
    (c.toNat < 0x80 ∧ encodeChar c = [.ofNat c.toNat]) ∨
    ∃ b p ms, encodeChar c = b :: ms.map continuation ∧ begin b.toNat = ([], some p) ∧
      p.Fits ms ∧ ms ≠ [] ∧ ms.length = p.needed ∧
      ms.foldl (fun codePoint m => codePoint * 64 + m) p.codePoint = c.toNat := by
  have hbounds := toNat_bounds c
  unfold encodeChar
  by_cases h₁ : c.toNat < 0x80
  · exact .inl ⟨h₁, if_pos h₁⟩
  · refine .inr ?_
    rw [if_neg h₁]
    by_cases h₂ : c.toNat < 0x800
    · rw [if_pos h₂]
      refine ⟨_, ⟨1, c.toNat / 64, 0x80, 0xBF, Nat.le_refl _⟩, [c.toNat % 64], rfl, ?_, ?_, by simp,
        rfl, ?_⟩
      · rw [toNat_ofNat_of_lt (by omega), begin, if_neg (by omega), if_pos (by omega)]
        simp
      · refine ⟨by simp; omega, ?_⟩
        simp
        omega
      · simp
        omega
    · rw [if_neg h₂]
      by_cases h₃ : c.toNat < 0x10000
      · rw [if_pos h₃]
        refine ⟨_, ⟨2, c.toNat / 4096, if 0xE0 + c.toNat / 4096 = 0xE0 then 0xA0 else 0x80,
          if 0xE0 + c.toNat / 4096 = 0xED then 0x9F else 0xBF, by split <;> omega⟩,
          [c.toNat / 64 % 64, c.toNat % 64], rfl, ?_, ?_, by simp, rfl, ?_⟩
        · rw [toNat_ofNat_of_lt (by omega), begin, if_neg (by omega), if_neg (by omega),
            if_pos (by omega)]
          simp
        · refine ⟨by simp; omega, ?_⟩
          simp
          split <;> split <;> omega
        · simp
          omega
      · rw [if_neg h₃]
        refine ⟨_, ⟨3, c.toNat / 262144, if 0xF0 + c.toNat / 262144 = 0xF0 then 0x90 else 0x80,
          if 0xF0 + c.toNat / 262144 = 0xF4 then 0x8F else 0xBF, by split <;> omega⟩,
          [c.toNat / 4096 % 64, c.toNat / 64 % 64, c.toNat % 64], rfl, ?_, ?_, by simp, rfl, ?_⟩
        · rw [toNat_ofNat_of_lt (by omega), begin, if_neg (by omega), if_neg (by omega),
            if_neg (by omega), if_pos (by omega)]
          simp
        · refine ⟨by simp; omega, ?_⟩
          simp
          split <;> split <;> omega
        · simp
          omega

/-- The bytes of a character are decoded to it. -/
theorem run_encodeChar (c : Char) : run none (encodeChar c) = ([c], none) := by
  rcases encodeChar_cases c with ⟨hn, heq⟩ | ⟨b, p, ms, heq, hbegin, hfits, hne, hlen, hvalue⟩
  · rw [heq, run, step, toNat_ofNat_of_lt (by omega), begin, if_pos hn, Char.ofNat_toNat]
    rfl
  · rw [heq, run, step, hbegin, (run_continuations hfits).1 hne hlen, hvalue, Char.ofNat_toNat]
    rfl

/-- Some, but not all bytes of a character leave it open. -/
theorem run_cut {c : Char} {head tail : List UInt8} (h : head ++ tail = encodeChar c)
    (hhead : head ≠ []) (htail : tail ≠ []) : ∃ p, run none head = ([], some p) := by
  obtain ⟨b', head, rfl⟩ := List.exists_cons_of_ne_nil hhead
  rw [List.cons_append] at h
  rcases encodeChar_cases c with ⟨-, heq⟩ | ⟨b, p, ms, heq, hbegin, hfits, -, hlen, -⟩
  · rw [heq, List.cons.injEq, List.append_eq_nil_iff] at h
    exact absurd h.2.2 htail
  · rw [heq, List.cons.injEq] at h
    obtain ⟨rfl, hrest⟩ := h
    obtain ⟨front, back, rfl, rfl, rfl⟩ := List.append_eq_map_iff.1 hrest
    have hfront : p.Fits front := by
      refine ⟨fun m hm => hfits.1 m (List.mem_append_left _ hm), fun m hm => hfits.2 m ?_⟩
      rw [List.head?_append, Option.mem_def.1 hm]
      rfl
    have hback : back ≠ [] := fun hnil => htail (by rw [hnil, List.map_nil])
    have hshort : front.length < p.needed := by
      have := List.length_pos_iff.2 hback
      rw [← hlen, List.length_append]
      omega
    obtain ⟨p', hp'⟩ := (run_continuations hfront).2 hshort
    exact ⟨p', by rw [run, step, hbegin, hp']; rfl⟩

/-- All bytes of a character but the first continue it. -/
theorem isContinuation_of_tail {c : Char} {head tail : List UInt8}
    (h : head ++ tail = encodeChar c) (hhead : head ≠ []) : ∀ b ∈ tail, IsContinuation b := by
  obtain ⟨b', head, rfl⟩ := List.exists_cons_of_ne_nil hhead
  rw [List.cons_append] at h
  rcases encodeChar_cases c with ⟨-, heq⟩ | ⟨b, p, ms, heq, -, hfits, -, -, -⟩
  · rw [heq, List.cons.injEq, List.append_eq_nil_iff] at h
    simp [h.2.2]
  · rw [heq, List.cons.injEq] at h
    intro b hb
    obtain ⟨m, hm, rfl⟩ := List.mem_map.1 (h.2 ▸ List.mem_append_right head hb)
    exact isContinuation_continuation (hfits.1 m hm)

theorem encodeChar_ne_nil (c : Char) : encodeChar c ≠ [] := by
  rcases encodeChar_cases c with ⟨-, heq⟩ | ⟨b, p, ms, heq, -⟩ <;> simp [heq]

/-! ### Decoding in pieces -/

/-- **What comes after whole characters** is decoded as if it came alone. -/
theorem decode_encode_append (text : List Char) (bs : List UInt8) :
    decode (encode text ++ bs) = text ++ decode bs := by
  induction text with
  | nil => rfl
  | cons c text ih =>
      rw [encode_cons, List.append_assoc, decode_append_of_run (run_encodeChar c), ih]
      rfl

/-- The decoder undoes the encoder. -/
theorem decode_encode (text : List Char) : decode (encode text) = text := by
  have hnil : decode [] = [] := rfl
  have h := decode_encode_append text []
  rwa [hnil, List.append_nil, List.append_nil] at h

/-- Two texts differ in their bytes. -/
theorem encode_injective : Function.Injective encode :=
  Function.LeftInverse.injective decode_encode

/-- The text of some bytes, if they are the bytes of one. -/
def decodeStrict (bytes : List UInt8) : Option (List Char) :=
  if encode (decode bytes) = bytes then some (decode bytes) else none

/-- The decoder that fails undoes the encoder. -/
theorem decodeStrict_encode (text : List Char) : decodeStrict (encode text) = some text := by
  rw [decodeStrict, decode_encode, if_pos rfl]

/-- **A character broken off** is replaced. -/
theorem decode_cut {c : Char} {head tail : List UInt8} (h : head ++ tail = encodeChar c)
    (hhead : head ≠ []) (htail : tail ≠ []) (text : List Char) :
    decode (encode text ++ head) = text ++ [replacement] := by
  obtain ⟨p, hp⟩ := run_cut h hhead htail
  rw [decode_encode_append, decode, hp]
  rfl

/-- **A byte without its character** is replaced. -/
theorem decode_cons_continuation {b : UInt8} (hb : IsContinuation b) (bs : List UInt8) :
    decode (b :: bs) = replacement :: decode bs := by
  have hrun : run none [b] = ([replacement], none) := by
    obtain ⟨hlower, hupper⟩ := hb
    rw [run, step, begin, if_neg (by omega), if_neg (by omega), if_neg (by omega),
      if_neg (by omega)]
    rfl
  exact decode_append_of_run hrun bs

theorem decode_continuations {conts : List UInt8} (h : ∀ b ∈ conts, IsContinuation b)
    (bs : List UInt8) :
    decode (conts ++ bs) = List.replicate conts.length replacement ++ decode bs := by
  induction conts with
  | nil => rfl
  | cons b conts ih =>
      rw [List.forall_mem_cons] at h
      rw [List.cons_append, decode_cons_continuation h.1, ih h.2]
      rfl

theorem step_newline (s : State) : step s 10 = (flush s ++ ['\n'], none) := by
  cases s with
  | none => rfl
  | some p =>
      have hlower := p.lower_ge
      have hbyte : (10 : UInt8).toNat = 10 := rfl
      rw [step, hbyte, if_neg (by omega)]
      rfl

/-- **A newline** is read as one after any bytes. -/
theorem decode_newline (bs bs' : List UInt8) :
    decode (bs ++ 10 :: bs') = decode bs ++ '\n' :: decode bs' := by
  rw [decode, run_append, run, step_newline]
  simp [decode]

/-- **Where a text is cut:** between two of its characters, or inside of one. -/
theorem encode_eq_append {text : List Char} {bs bs' : List UInt8} (h : bs ++ bs' = encode text) :
    (∃ text₁ text₂, text = text₁ ++ text₂ ∧ bs = encode text₁ ∧ bs' = encode text₂) ∨
    ∃ text₁ c text₂ head tail, text = text₁ ++ c :: text₂ ∧ bs = encode text₁ ++ head ∧
      bs' = tail ++ encode text₂ ∧ head ++ tail = encodeChar c ∧ head ≠ [] ∧ tail ≠ [] := by
  induction text generalizing bs with
  | nil =>
      obtain ⟨rfl, rfl⟩ := List.append_eq_nil_iff.1 h
      exact .inl ⟨[], [], rfl, rfl, rfl⟩
  | cons c text ih =>
      rw [encode_cons] at h
      rcases List.append_eq_append_iff.1 h with ⟨tail, hchar, rfl⟩ | ⟨rest, rfl, htext⟩
      · by_cases hhead : bs = []
        · exact .inl ⟨[], c :: text, rfl, hhead, by rw [encode_cons, hchar, hhead, List.nil_append]⟩
        · by_cases htail : tail = []
          · refine .inl ⟨[c], text, rfl, ?_, by rw [htail, List.nil_append]⟩
            rw [encode_cons, hchar, htail, encode_nil, List.append_nil, List.append_nil]
          · exact .inr ⟨[], c, text, bs, tail, rfl, rfl, rfl, hchar.symm, hhead, htail⟩
      · rcases ih htext.symm with ⟨text₁, text₂, rfl, rfl, rfl⟩ |
          ⟨text₁, c', text₂, head, tail, rfl, rfl, rfl, hcut⟩
        · exact .inl ⟨c :: text₁, text₂, rfl, rfl, rfl⟩
        · exact .inr ⟨c :: text₁, c', text₂, head, tail, rfl, by simp, rfl, hcut⟩

end Utf8
end Machine
end CognitiveEngine
