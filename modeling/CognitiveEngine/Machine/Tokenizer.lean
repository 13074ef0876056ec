/-
# Tokenizers and cut texts

`Encoding` turns texts into tokens and back, and `Tokenizer` adds what holds of the
usual ones: decoding undoes encoding, joining texts adds at most their tokens, and a text
made of some first tokens of a text has no more tokens than these.  `count_join_le`
carries the count through a list of texts.

`spelled` is the tokenizer that spells each character with the same number of tokens, of
which decoding needs all.
-/

import Mathlib.Data.List.Basic
import Mathlib.Algebra.Order.Group.Nat
import Mathlib.Tactic.Ring

namespace CognitiveEngine
namespace Machine

variable {τ : Type}

/-- Texts to tokens and tokens to texts. -/
structure Encoding (τ : Type) where
  encode : String → List τ
  decode : List τ → String

namespace Encoding

/-- The number of tokens of a text. -/
def count (e : Encoding τ) (s : String) : ℕ := (e.encode s).length

/-- The text of the first `n` tokens of a text. -/
def cut (e : Encoding τ) (n : ℕ) (s : String) : String := e.decode ((e.encode s).take n)

/-- The number of tokens of a list of texts. -/
def total (e : Encoding τ) (ss : List String) : ℕ := (ss.map e.count).sum

@[simp] theorem total_nil (e : Encoding τ) : e.total [] = 0 := rfl

@[simp] theorem total_cons (e : Encoding τ) (s : String) (ss : List String) :
    e.total (s :: ss) = e.count s + e.total ss := rfl

theorem total_append (e : Encoding τ) (ss ss' : List String) :
    e.total (ss ++ ss') = e.total ss + e.total ss' := by
  rw [total, List.map_append, List.sum_append, total, total]

end Encoding

/-- An encoding with the laws of a tokenizer. -/
structure Tokenizer (τ : Type) extends Encoding τ where
  decode_encode : ∀ s, decode (encode s) = s
  encode_empty : encode "" = []
  count_append_le : ∀ s s', toEncoding.count (s ++ s') ≤ toEncoding.count s + toEncoding.count s'
  count_cut_le : ∀ s n, toEncoding.count (toEncoding.cut n s) ≤ ((encode s).take n).length

/-- **Joining texts adds at most their tokens.** -/
theorem Tokenizer.count_join_le (t : Tokenizer τ) (ss : List String) :
    t.count (String.join ss) ≤ t.total ss := by
  induction ss with
  | nil => simp [Encoding.count, t.encode_empty]
  | cons s ss ih =>
      rw [String.join_cons, Encoding.total_cons]
      exact (t.count_append_le _ _).trans (Nat.add_le_add_left ih _)

/-! ### Characters spelled with several tokens -/

/-- The tokens of a character. -/
def spell (k : ℕ) (c : Char) : List (Char × ℕ) := (List.range (k + 1)).map (c, ·)

/-- The character a token ends, if it is the last of one. -/
def ended (k : ℕ) (token : Char × ℕ) : Option Char := if token.2 = k then some token.1 else none

@[simp] theorem length_spell (k : ℕ) (c : Char) : (spell k c).length = k + 1 := by simp [spell]

/-- Only the last token of a character ends it. -/
theorem filterMap_take_spell {k n : ℕ} (c : Char) (h : n ≤ k) :
    ((spell k c).take n).filterMap (ended k) = [] := by
  rw [spell, ← List.map_take, List.take_range, List.filterMap_map, List.filterMap_eq_nil_iff]
  intro i hi
  have hlt : i < min n (k + 1) := List.mem_range.1 hi
  rw [Function.comp_apply, ended, if_neg (by omega)]

theorem filterMap_spell (k : ℕ) (c : Char) : (spell k c).filterMap (ended k) = [c] := by
  rw [spell, List.range_succ, List.map_append, List.filterMap_append]
  have hfirst := filterMap_take_spell c (le_refl k)
  rw [spell, ← List.map_take, List.take_range, Nat.min_eq_left (Nat.le_succ k)] at hfirst
  rw [hfirst]
  simp [ended]

theorem filterMap_flatMap_spell (k : ℕ) (cs : List Char) :
    (cs.flatMap (spell k)).filterMap (ended k) = cs := by
  induction cs with
  | nil => rfl
  | cons c cs ih =>
      rw [List.flatMap_cons, List.filterMap_append, filterMap_spell, ih, List.singleton_append]

theorem length_flatMap_spell (k : ℕ) (cs : List Char) :
    (cs.flatMap (spell k)).length = (k + 1) * cs.length := by
  induction cs with
  | nil => rfl
  | cons c cs ih =>
      rw [List.flatMap_cons, List.length_append, length_spell, ih, List.length_cons]
      ring

/-- The characters that end among the first tokens have no more tokens than these. -/
theorem length_filterMap_take_le (k n : ℕ) (cs : List Char) :
    (k + 1) * (((cs.flatMap (spell k)).take n).filterMap (ended k)).length
      ≤ ((cs.flatMap (spell k)).take n).length := by
  induction cs generalizing n with
  | nil => simp
  | cons c cs ih =>
      rw [List.flatMap_cons, List.take_append, length_spell]
      by_cases hn : n ≤ k
      · have hzero : n - (k + 1) = 0 := by omega
        rw [hzero, List.take_zero, List.append_nil, filterMap_take_spell c hn]
        exact Nat.zero_le _
      · have hall : (spell k c).take n = spell k c :=
          List.take_of_length_le (by rw [length_spell]; omega)
        rw [hall, List.filterMap_append, filterMap_spell, List.length_append, List.length_append,
          length_spell, List.length_singleton, Nat.mul_add, Nat.mul_one]
        exact Nat.add_le_add_left (ih _) _

/-- The tokenizer that spells each character with `k + 1` tokens. -/
def spelled (k : ℕ) : Tokenizer (Char × ℕ) where
  encode s := s.toList.flatMap (spell k)
  decode tokens := String.ofList (tokens.filterMap (ended k))
  decode_encode s := by rw [filterMap_flatMap_spell, String.ofList_toList]
  encode_empty := rfl
  count_append_le s s' := by
    simp only [Encoding.count, String.toList_append, List.flatMap_append, List.length_append]
    exact le_rfl
  count_cut_le s n := by
    simp only [Encoding.count, Encoding.cut, String.toList_ofList]
    rw [length_flatMap_spell]
    exact length_filterMap_take_le k n s.toList

theorem count_spelled (k : ℕ) (s : String) : (spelled k).count s = (k + 1) * s.length := by
  rw [Encoding.count, spelled, length_flatMap_spell, String.length_toList]

/-- Less than the tokens of a character spell nothing. -/
theorem cut_spelled {k n : ℕ} (s : String) (h : n ≤ k) : (spelled k).cut n s = "" := by
  rw [Encoding.cut, spelled]
  dsimp only
  rw [String.ofList_eq_empty_iff]
  cases hs : s.toList with
  | nil => rw [List.flatMap_nil, List.take_nil, List.filterMap_nil]
  | cons c cs =>
      have hle : n ≤ (spell k c).length := by rw [length_spell]; omega
      rw [List.flatMap_cons, List.take_append_of_le_length hle, filterMap_take_spell c h]

end Machine
end CognitiveEngine
