/-
# JSON texts

`json.dumps` without blanks and `json.loads`, on the characters of the text.  An object is
written with its members in order; of members with one key that are read, the last one's
value stands at the place of the first.  `dumpsRecord` is what `json.dumps` writes of an
object of texts and numbers when it is given no separators: one blank after each.

How a float is written and read is given.  `loads_dumps` says that a value is read as it
was written, by induction on the value: what follows it is a delimiter, which no literal
looks past.  The members of an object are read alike with blanks and without
(`scanOnce_spaced`).
-/

import CognitiveEngine.Graph.Messages
import CognitiveEngine.Machine.Fallible
import CognitiveEngine.Machine.JsonLiterals

namespace CognitiveEngine
namespace Mcp

open CognitiveEngine.Graph CognitiveEngine.Machine CognitiveEngine.Machine.JsonText

/-- How the floats are written and read.  The text of a float is a number with a fraction
or an exponent, and is read as that float. -/
structure FloatText where
  isFloat : ℚ → Prop
  repr : ℚ → List Char
  float : List Char → ℚ
  scanNumber_repr : ∀ x, isFloat x → ∃ literal, scanNumber (repr x) = some (literal, []) ∧
    (literal.frac ≠ [] ∨ literal.exp ≠ []) ∧
    float (literal.integer ++ literal.frac ++ literal.exp) = x

variable (F : FloatText)

/-! ### Writing -/

mutual

/-- `json.dumps(value, separators=(',', ':'))`. -/
def dumps : Json → List Char
  | .null => "null".toList
  | .bool true => "true".toList
  | .bool false => "false".toList
  | .int n => intText n
  | .float x => F.repr x
  | .str s => quoted s.toList
  | .arr [] => "[]".toList
  | .arr (item :: items) => '[' :: dumps item ++ dumpsItems items
  | .obj [] => "{}".toList
  | .obj ((key, value) :: members) =>
      '{' :: quoted key.toList ++ ':' :: dumps value ++ dumpsMembers members

/-- The items after the first, and the end of the array. -/
def dumpsItems : List Json → List Char
  | [] => [']']
  | item :: items => ',' :: dumps item ++ dumpsItems items

/-- The members after the first, and the end of the object. -/
def dumpsMembers : List (String × Json) → List Char
  | [] => ['}']
  | (key, value) :: members =>
      ',' :: quoted key.toList ++ ':' :: dumps value ++ dumpsMembers members

end

/-- The members after the first, with blanks after the separators, and the end of the
object. -/
def spacedMembers (blanks : List Char) : List (String × Json) → List Char
  | [] => ['}']
  | (key, value) :: members =>
      ',' :: (blanks ++ (quoted key.toList ++
        (':' :: (blanks ++ (dumps F value ++ spacedMembers blanks members)))))

/-- `json.dumps(value)` of an object whose values have no items and no members. -/
def dumpsRecord : List (String × Json) → List Char
  | [] => "{}".toList
  | (key, value) :: members =>
      '{' :: (quoted key.toList ++ (':' :: ' ' :: (dumps F value ++ spacedMembers F [' '] members)))

/-! ### Reading -/

/-- Blanks. -/
def isBlank (c : Char) : Bool := c = ' ' || c = '\t' || c = '\n' || c = '\r'

/-- A text without the blanks it starts with. -/
def skipBlanks (cs : List Char) : List Char := cs.dropWhile isBlank

/-- The text after a character, if it starts with that. -/
def expect (c : Char) : List Char → Option (List Char)
  | [] => none
  | d :: cs => if d = c then some cs else none

/-- The text after a word, if it starts with that. -/
def expectWord : List Char → List Char → Option (List Char)
  | [], cs => some cs
  | c :: word, cs => expect c cs >>= expectWord word

/-- The value of a member. -/
def setItem (members : List (String × Json)) (key : String) (value : Json) :
    List (String × Json) :=
  if ∃ m ∈ members, m.1 = key then members.map fun m => if m.1 = key then (key, value) else m
  else members ++ [(key, value)]

/-- The object of some members. -/
def toDict (members : List (String × Json)) : Json :=
  .obj (members.foldl (fun dict m => setItem dict m.1 m.2) [])

/-- A string, from its opening quote on. -/
def scanStr (cs : List Char) : Option (String × List Char) :=
  expect '"' cs >>= fun rest =>
    (scanString (rest.length + 1) rest).map fun (text, rest) => (String.ofList text, rest)

/-- The items of an array from one on, up to the end of the array. -/
def scanItems (scan : List Char → Option (Json × List Char)) :
    ℕ → List Char → Option (List Json × List Char)
  | 0, _ => none
  | n + 1, cs => do
      let (item, rest) ← scan cs
      match expect ']' (skipBlanks rest) with
      | some rest => some ([item], rest)
      | none =>
          let rest ← expect ',' (skipBlanks rest)
          let (items, rest) ← scanItems scan n (skipBlanks rest)
          return (item :: items, rest)

/-- The members of an object from one on, up to the end of the object. -/
def scanMembers (scan : List Char → Option (Json × List Char)) :
    ℕ → List Char → Option (List (String × Json) × List Char)
  | 0, _ => none
  | n + 1, cs => do
      let (key, rest) ← scanStr cs
      let rest ← expect ':' (skipBlanks rest)
      let (value, rest) ← scan (skipBlanks rest)
      match expect '}' (skipBlanks rest) with
      | some rest => some ([(key, value)], rest)
      | none =>
          let rest ← expect ',' (skipBlanks rest)
          let (members, rest) ← scanMembers scan n (skipBlanks rest)
          return ((key, value) :: members, rest)

/-- `_match_number`. -/
def scanNum (cs : List Char) : Option (Json × List Char) :=
  (scanNumber cs).map fun (literal, rest) =>
    if literal.frac ≠ [] ∨ literal.exp ≠ [] then
      (.float (F.float (literal.integer ++ literal.frac ++ literal.exp)), rest)
    else (.int (readInt literal.integer), rest)

/-- `scan_once`, for values nested to a depth.  `NaN` and the infinities are no values. -/
def scanOnce : ℕ → List Char → Option (Json × List Char)
  | 0, _ => none
  | _ + 1, [] => none
  | n + 1, c :: rest =>
      if c = '"' then (scanStr (c :: rest)).map fun (s, rest) => (.str s, rest)
      else if c = '{' then
        match expect '}' (skipBlanks rest) with
        | some rest => some (toDict [], rest)
        | none => (scanMembers (scanOnce n) rest.length (skipBlanks rest)).map
            fun (members, rest) => (toDict members, rest)
      else if c = '[' then
        match expect ']' (skipBlanks rest) with
        | some rest => some (.arr [], rest)
        | none => (scanItems (scanOnce n) rest.length (skipBlanks rest)).map
            fun (items, rest) => (.arr items, rest)
      else if c = 'n' then (expectWord "ull".toList rest).map fun rest => (.null, rest)
      else if c = 't' then (expectWord "rue".toList rest).map fun rest => (.bool true, rest)
      else if c = 'f' then (expectWord "alse".toList rest).map fun rest => (.bool false, rest)
      else scanNum F (c :: rest)

/-- `json.loads`. -/
def loads (text : List Char) : Option Json :=
  if text.head? = some '\uFEFF' then none
  else
    match scanOnce F (text.length + 1) (skipBlanks text) with
    | some (value, rest) => if skipBlanks rest = [] then some value else none
    | none => none

/-! ### Values -/

/-- A value of the language: its floats are floats, and no object has a key twice. -/
inductive IsValue : Json → Prop
  | null : IsValue .null
  | bool (b : Bool) : IsValue (.bool b)
  | int (n : ℤ) : IsValue (.int n)
  | float (x : ℚ) (h : F.isFloat x) : IsValue (.float x)
  | str (s : String) : IsValue (.str s)
  | arr (items : List Json) (h : ∀ item ∈ items, IsValue item) : IsValue (.arr items)
  | obj (members : List (String × Json)) (hkeys : (members.map Prod.fst).Nodup)
      (h : ∀ m ∈ members, IsValue m.2) : IsValue (.obj members)

/-! ### Values are read as they were written -/

variable {F}

@[simp] theorem expect_self (c : Char) (cs : List Char) : expect c (c :: cs) = some cs :=
  if_pos rfl

theorem expect_ne {c d : Char} (h : d ≠ c) (cs : List Char) : expect c (d :: cs) = none := if_neg h

theorem skipBlanks_cons {c : Char} (h : isBlank c = false) (cs : List Char) :
    skipBlanks (c :: cs) = c :: cs :=
  List.dropWhile_cons_of_neg (by rw [h]; exact Bool.false_ne_true)

/-- A quoted text starts with its quote. -/
theorem skipBlanks_quoted (text rest : List Char) :
    skipBlanks (quoted text ++ rest) = quoted text ++ rest :=
  skipBlanks_cons rfl _

/-- A text that a value can start with: no blank, no closing bracket, no byte order mark. -/
def Starts (cs : List Char) : Prop :=
  ∃ c rest, cs = c :: rest ∧ isBlank c = false ∧ c ≠ ']' ∧ c ≠ '\uFEFF'

theorem Starts.append {cs : List Char} (h : Starts cs) (rest : List Char) : Starts (cs ++ rest) := by
  obtain ⟨c, tail, rfl, hc⟩ := h
  exact ⟨c, tail ++ rest, rfl, hc⟩

theorem Starts.skipBlanks {cs : List Char} (h : Starts cs) : skipBlanks cs = cs := by
  obtain ⟨c, rest, rfl, hblank, -⟩ := h
  exact skipBlanks_cons hblank rest

theorem Starts.expect {cs : List Char} (h : Starts cs) : expect ']' cs = none := by
  obtain ⟨c, rest, rfl, -, hbracket, -⟩ := h
  exact expect_ne hbracket rest

/-- What is scanned as a number starts like one. -/
theorem starts_of_scanNumber {cs : List Char} {p : NumberLiteral × List Char}
    (h : scanNumber cs = some p) : ∃ c rest, cs = c :: rest ∧ (c.isDigit ∨ c = '-') := by
  cases cs with
  | nil => exact absurd h (by simp [scanNumber, scanSign, scanWhole])
  | cons c rest =>
      refine ⟨c, rest, rfl, ?_⟩
      by_cases hc : c = '-'
      · exact .inr hc
      · refine .inl ?_
        by_contra hdigit
        have hzero : c ≠ '0' := fun hzero => hdigit (hzero ▸ rfl)
        rw [scanNumber, scanSign, if_neg hc] at h
        simp [scanWhole, hzero, hdigit] at h

/-- A number starts a value, and no other one. -/
theorem number_ne {c : Char} (h : c.isDigit ∨ c = '-') :
    isBlank c = false ∧ c ≠ ']' ∧ c ≠ '\uFEFF' ∧ c ≠ '"' ∧ c ≠ '{' ∧ c ≠ '[' ∧ c ≠ 'n' ∧ c ≠ 't' ∧
      c ≠ 'f' := by
  have hne : ∀ d : Char, d.isDigit = false → d ≠ '-' → c ≠ d := by
    rintro d hdigit hsign rfl
    rcases h with h | h
    · rw [hdigit] at h
      exact Bool.false_ne_true h
    · exact hsign h
  refine ⟨?_, hne _ rfl (by decide), hne _ rfl (by decide), hne _ rfl (by decide),
    hne _ rfl (by decide), hne _ rfl (by decide), hne _ rfl (by decide), hne _ rfl (by decide),
    hne _ rfl (by decide)⟩
  simp [isBlank, hne ' ' rfl (by decide), hne '\t' rfl (by decide), hne '\n' rfl (by decide),
    hne '\r' rfl (by decide)]

/-- A number is scanned as such before a delimiter. -/
theorem scanOnce_number {cs rest : List Char} {literal : NumberLiteral} {n : ℕ}
    (h : scanNumber cs = some (literal, [])) (hrest : Delimited rest) (hn : 0 < n) :
    scanOnce F n (cs ++ rest) =
      some (if literal.frac ≠ [] ∨ literal.exp ≠ [] then
          .float (F.float (literal.integer ++ literal.frac ++ literal.exp))
        else .int (readInt literal.integer), rest) := by
  obtain ⟨c, tail, rfl, hc⟩ := starts_of_scanNumber h
  obtain ⟨-, -, -, hquote, hbrace, hbracket, hnull, htrue, hfalse⟩ := number_ne hc
  obtain ⟨n, rfl⟩ := Nat.exists_eq_add_one_of_ne_zero (Nat.ne_of_gt hn)
  rw [List.cons_append, scanOnce, if_neg hquote, if_neg hbrace, if_neg hbracket, if_neg hnull,
    if_neg htrue, if_neg hfalse, ← List.cons_append, scanNum, scanNumber_append hrest, h]
  simp only [Option.map_some, followed, List.nil_append]
  split <;> rfl

/-- A string is scanned as it was written. -/
theorem scanStr_quoted (s : String) (rest : List Char) :
    scanStr (quoted s.toList ++ rest) = some (s, rest) := by
  have hlength : s.toList.length < (s.toList.flatMap escapeChar ++ '"' :: rest).length + 1 := by
    have hle := length_le_flatMap_escapeChar s.toList
    rw [List.length_append]
    omega
  rw [scanStr, quoted, List.cons_append, List.cons_append, expect_self, some_bind,
    List.append_assoc, List.singleton_append, scanString_quoted hlength,
    Option.map_some]
  dsimp only
  rw [String.ofList_toList]

/-- A value that is written starts like one. -/
theorem starts_dumps {v : Json} (h : IsValue F v) : Starts (dumps F v) := by
  have hnumber : ∀ {cs : List Char} {p : NumberLiteral × List Char},
      scanNumber cs = some p → Starts cs := by
    intro cs p hp
    obtain ⟨c, rest, rfl, hc⟩ := starts_of_scanNumber hp
    obtain ⟨hblank, hbracket, hmark, -⟩ := number_ne hc
    exact ⟨c, rest, rfl, hblank, hbracket, hmark⟩
  cases h with
  | null => exact ⟨'n', _, rfl, rfl, by decide, by decide⟩
  | bool b =>
      cases b
      · exact ⟨'f', _, rfl, rfl, by decide, by decide⟩
      · exact ⟨'t', _, rfl, rfl, by decide, by decide⟩
  | int n =>
      rw [dumps]
      exact hnumber (scanNumber_intText n)
  | float x hx =>
      obtain ⟨literal, hscan, -⟩ := F.scanNumber_repr x hx
      rw [dumps]
      exact hnumber hscan
  | str s =>
      rw [dumps]
      exact ⟨'"', _, rfl, rfl, by decide, by decide⟩
  | arr items hitems =>
      cases items with
      | nil =>
          rw [dumps]
          exact ⟨'[', _, rfl, rfl, by decide, by decide⟩
      | cons item items =>
          rw [dumps]
          exact ⟨'[', _, rfl, rfl, by decide, by decide⟩
  | obj members hkeys hmembers =>
      cases members with
      | nil =>
          rw [dumps]
          exact ⟨'{', _, rfl, rfl, by decide, by decide⟩
      | cons m members =>
          rw [dumps]
          exact ⟨'{', _, rfl, rfl, by decide, by decide⟩

/-- The items and the members of a list are written with at least one character each. -/
theorem length_dumpsItems (items : List Json) : items.length < (dumpsItems F items).length := by
  induction items with
  | nil => exact Nat.lt_succ_self 0
  | cons item items ih =>
      rw [dumpsItems, List.length_cons, List.length_append, List.length_cons]
      omega

theorem length_spacedMembers (blanks : List Char) (members : List (String × Json)) :
    members.length < (spacedMembers F blanks members).length := by
  induction members with
  | nil => exact Nat.lt_succ_self 0
  | cons m members ih =>
      rw [spacedMembers]
      simp only [List.length_append, List.length_cons]
      omega

/-- An item is no longer than the items. -/
theorem length_dumps_le_items {v : Json} {items : List Json} (h : v ∈ items) :
    (dumps F v).length ≤ (dumpsItems F items).length := by
  induction items with
  | nil => exact absurd h List.not_mem_nil
  | cons item items ih =>
      rw [dumpsItems, List.length_append, List.length_cons]
      rcases List.mem_cons.1 h with rfl | h
      · omega
      · have := ih h
        omega

theorem length_dumps_le_members {m : String × Json} {members : List (String × Json)}
    (h : m ∈ members) (blanks : List Char) :
    (dumps F m.2).length ≤ (spacedMembers F blanks members).length := by
  induction members with
  | nil => exact absurd h List.not_mem_nil
  | cons m' members ih =>
      rw [spacedMembers]
      simp only [List.length_append, List.length_cons]
      rcases List.mem_cons.1 h with rfl | h
      · omega
      · have := ih h
        omega

/-- What follows an item or a member is a delimiter. -/
theorem delimited_dumpsItems (items : List Json) (rest : List Char) :
    Delimited (dumpsItems F items ++ rest) := by
  cases items with
  | nil => exact delimited_cons.2 (.inr (.inl rfl))
  | cons item items =>
      rw [dumpsItems]
      exact delimited_cons.2 (.inl rfl)

theorem delimited_spacedMembers (blanks : List Char) (members : List (String × Json))
    (rest : List Char) : Delimited (spacedMembers F blanks members ++ rest) := by
  cases members with
  | nil => exact delimited_cons.2 (.inr (.inr rfl))
  | cons m members => exact delimited_cons.2 (.inl rfl)

/-- The next item, and the rest of the text. -/
theorem dumpsItems_append (item : Json) (items : List Json) (rest : List Char) :
    dumpsItems F (item :: items) ++ rest
      = ',' :: (dumps F item ++ (dumpsItems F items ++ rest)) := by
  rw [dumpsItems, List.cons_append, List.cons_append, List.append_assoc]

theorem spacedMembers_append (blanks : List Char) (m : String × Json)
    (members : List (String × Json)) (rest : List Char) :
    spacedMembers F blanks (m :: members) ++ rest = ',' :: (blanks ++ (quoted m.1.toList ++
      (':' :: (blanks ++ (dumps F m.2 ++ (spacedMembers F blanks members ++ rest)))))) := by
  rw [spacedMembers]
  simp only [List.cons_append, List.append_assoc]

/-- The members of an object are written without blanks. -/
theorem dumpsMembers_eq (members : List (String × Json)) :
    dumpsMembers F members = spacedMembers F [] members := by
  induction members with
  | nil => rfl
  | cons m members ih =>
      rw [dumpsMembers, spacedMembers, ih]
      simp only [List.nil_append, List.cons_append, List.append_assoc]

/-- Blanks are skipped. -/
theorem skipBlanks_append {blanks : List Char} (h : ∀ c ∈ blanks, isBlank c) (rest : List Char) :
    skipBlanks (blanks ++ rest) = skipBlanks rest :=
  List.dropWhile_append_of_pos h

/-- A scanner that reads a value as it is written, before a delimiter. -/
def Reads (F : FloatText) (scan : List Char → Option (Json × List Char)) (v : Json) : Prop :=
  ∀ rest, Delimited rest → scan (dumps F v ++ rest) = some (v, rest)

/-- The items of an array are scanned as they were written. -/
theorem scanItems_dumps {scan : List Char → Option (Json × List Char)} {item : Json}
    {items : List Json} {n : ℕ} (hscan : ∀ v ∈ item :: items, Reads F scan v)
    (hstarts : ∀ v ∈ items, Starts (dumps F v)) (hn : items.length < n) (rest : List Char) :
    scanItems scan n (dumps F item ++ (dumpsItems F items ++ rest)) = some (item :: items, rest) := by
  induction items generalizing item n with
  | nil =>
      obtain ⟨n, rfl⟩ := Nat.exists_eq_add_one_of_ne_zero (Nat.ne_zero_of_lt hn)
      rw [scanItems, hscan item List.mem_cons_self _ (delimited_dumpsItems [] rest),
        some_bind]
      rfl
  | cons next items ih =>
      obtain ⟨n, rfl⟩ := Nat.exists_eq_add_one_of_ne_zero (Nat.ne_zero_of_lt hn)
      rw [List.forall_mem_cons] at hscan hstarts
      rw [scanItems, hscan.1 _ (delimited_dumpsItems (next :: items) rest), some_bind]
      dsimp only
      rw [dumpsItems_append, skipBlanks_cons rfl, expect_ne (by decide), expect_self]
      dsimp only
      rw [some_bind, (hstarts.1.append _).skipBlanks,
        ih hscan.2 hstarts.2 (by rw [List.length_cons] at hn; omega)]
      rfl

/-- The members of an object are scanned as they were written, with blanks or without. -/
theorem scanMembers_spaced {scan : List Char → Option (Json × List Char)} {blanks : List Char}
    (hblanks : ∀ c ∈ blanks, isBlank c) {m : String × Json}
    {members : List (String × Json)} {n : ℕ} (hscan : ∀ v ∈ m :: members, Reads F scan v.2)
    (hstarts : ∀ v ∈ m :: members, Starts (dumps F v.2)) (hn : members.length < n)
    (rest : List Char) :
    scanMembers scan n (quoted m.1.toList ++
        (':' :: (blanks ++ (dumps F m.2 ++ (spacedMembers F blanks members ++ rest)))))
      = some (m :: members, rest) := by
  induction members generalizing m n with
  | nil =>
      obtain ⟨n, rfl⟩ := Nat.exists_eq_add_one_of_ne_zero (Nat.ne_zero_of_lt hn)
      rw [List.forall_mem_cons] at hscan hstarts
      rw [scanMembers, scanStr_quoted, some_bind]
      dsimp only
      rw [skipBlanks_cons rfl, expect_self, some_bind, skipBlanks_append hblanks,
        (hstarts.1.append _).skipBlanks, hscan.1 _ (delimited_spacedMembers blanks [] rest),
        some_bind]
      rfl
  | cons next members ih =>
      obtain ⟨n, rfl⟩ := Nat.exists_eq_add_one_of_ne_zero (Nat.ne_zero_of_lt hn)
      rw [List.forall_mem_cons] at hscan hstarts
      rw [scanMembers, scanStr_quoted, some_bind]
      dsimp only
      rw [skipBlanks_cons rfl, expect_self, some_bind, skipBlanks_append hblanks,
        (hstarts.1.append _).skipBlanks,
        hscan.1 _ (delimited_spacedMembers blanks (next :: members) rest), some_bind]
      dsimp only
      rw [spacedMembers_append, skipBlanks_cons rfl, expect_ne (by decide), expect_self]
      dsimp only
      rw [some_bind, skipBlanks_append hblanks, skipBlanks_quoted,
        ih hscan.2 hstarts.2 (by rw [List.length_cons] at hn; omega)]
      rfl

/-- Members with keys of their own make up an object as they are. -/
theorem toDict_eq {members : List (String × Json)} (h : (members.map Prod.fst).Nodup) :
    toDict members = .obj members := by
  have hfold : ∀ dict : List (String × Json), ((dict ++ members).map Prod.fst).Nodup →
      members.foldl (fun dict m => setItem dict m.1 m.2) dict = dict ++ members := by
    clear h
    induction members with
    | nil => exact fun dict _ => (List.append_nil dict).symm
    | cons m members ih =>
        intro dict hnodup
        have hnew : ¬ ∃ m' ∈ dict, m'.1 = m.1 := by
          rintro ⟨m', hm', hkey⟩
          rw [List.map_append, List.map_cons, List.nodup_append] at hnodup
          exact hnodup.2.2 _ (List.mem_map_of_mem hm') _ List.mem_cons_self hkey
        rw [List.append_cons] at hnodup ⊢
        rw [List.foldl_cons, setItem, if_neg hnew]
        exact ih _ hnodup
  rw [toDict, hfold [] (by simpa using h), List.nil_append]

/-- A text that starts a value is not empty. -/
theorem Starts.length_pos {cs : List Char} (h : Starts cs) : 0 < cs.length := by
  obtain ⟨c, rest, rfl, -⟩ := h
  exact Nat.succ_pos _

/-- An array is scanned as it was written, when its items are. -/
theorem scanOnce_arr {items : List Json} {n : ℕ} (hitems : ∀ v ∈ items, IsValue F v)
    (hn : (dumps F (.arr items)).length ≤ n + 1) (ih : ∀ v ∈ items,
      (dumps F v).length ≤ n → Reads F (scanOnce F n) v) :
    Reads F (scanOnce F (n + 1)) (.arr items) := by
  intro rest hrest
  cases items with
  | nil => rfl
  | cons item items =>
      rw [dumps, List.length_append, List.length_cons] at hn
      have hscan : ∀ v ∈ item :: items, Reads F (scanOnce F n) v := by
        refine List.forall_mem_cons.2 ⟨ih item List.mem_cons_self (by omega), fun v hv => ?_⟩
        have := length_dumps_le_items (F := F) hv
        exact ih v (List.mem_cons_of_mem _ hv) (by omega)
      rw [List.forall_mem_cons] at hitems
      have hstarts := (starts_dumps hitems.1).append (dumpsItems F items ++ rest)
      have hlength := length_dumpsItems (F := F) items
      rw [dumps, List.cons_append, List.cons_append, List.append_assoc, scanOnce,
        if_neg (by decide), if_neg (by decide), if_pos rfl, hstarts.skipBlanks, hstarts.expect]
      dsimp only
      rw [scanItems_dumps hscan (fun v hv => starts_dumps (hitems.2 v hv))
        (by rw [List.length_append, List.length_append]; omega)]
      rfl

/-- An object is scanned as it was written, with blanks or without, when its values are. -/
theorem scanOnce_spaced {blanks : List Char} (hblanks : ∀ c ∈ blanks, isBlank c)
    {m : String × Json} {members : List (String × Json)} {n : ℕ}
    (hkeys : ((m :: members).map Prod.fst).Nodup) (hmembers : ∀ v ∈ m :: members, IsValue F v.2)
    (hscan : ∀ v ∈ m :: members, Reads F (scanOnce F n) v.2) (rest : List Char) :
    scanOnce F (n + 1) ('{' :: (quoted m.1.toList ++
        (':' :: (blanks ++ (dumps F m.2 ++ (spacedMembers F blanks members ++ rest))))))
      = some (.obj (m :: members), rest) := by
  have hlength := length_spacedMembers (F := F) blanks members
  have hopen : ∀ tail, expect '}' (quoted m.1.toList ++ tail) = none :=
    fun tail => expect_ne (by decide) _
  rw [scanOnce, if_neg (by decide), if_pos rfl, skipBlanks_quoted, hopen]
  dsimp only
  rw [scanMembers_spaced hblanks hscan (fun v hv => starts_dumps (hmembers v hv)) (by
    simp only [List.length_append, List.length_cons]
    omega), Option.map_some]
  dsimp only
  rw [toDict_eq hkeys]

theorem scanOnce_obj {members : List (String × Json)} {n : ℕ}
    (hkeys : (members.map Prod.fst).Nodup) (hmembers : ∀ m ∈ members, IsValue F m.2)
    (hn : (dumps F (.obj members)).length ≤ n + 1) (ih : ∀ m ∈ members,
      (dumps F m.2).length ≤ n → Reads F (scanOnce F n) m.2) :
    Reads F (scanOnce F (n + 1)) (.obj members) := by
  intro rest hrest
  cases members with
  | nil => rfl
  | cons m members =>
      rw [dumps, dumpsMembers_eq, List.length_append, List.length_append, List.length_cons] at hn
      have hscan : ∀ v ∈ m :: members, Reads F (scanOnce F n) v.2 := by
        refine List.forall_mem_cons.2 ⟨ih m List.mem_cons_self ?_, fun v hv => ?_⟩
        · rw [List.length_cons] at hn
          omega
        · have := length_dumps_le_members (F := F) hv []
          exact ih v (List.mem_cons_of_mem _ hv) (by omega)
      have htext : dumps F (.obj (m :: members)) ++ rest = '{' :: (quoted m.1.toList ++
          (':' :: ([] ++ (dumps F m.2 ++ (spacedMembers F [] members ++ rest))))) := by
        rw [dumps, ← dumpsMembers_eq]
        simp only [List.cons_append, List.append_assoc, List.nil_append]
      rw [htext]
      exact scanOnce_spaced (fun _ h => absurd h List.not_mem_nil) hkeys hmembers hscan rest

/-- **A value is scanned as it was written,** before a delimiter. -/
theorem scanOnce_dumps {v : Json} (h : IsValue F v) :
    ∀ n, (dumps F v).length ≤ n → Reads F (scanOnce F n) v := by
  have hsucc : ∀ v, IsValue F v → ∀ n, (dumps F v).length ≤ n → ∃ m, n = m + 1 := fun v hv n hn =>
    Nat.exists_eq_add_one_of_ne_zero (Nat.ne_of_gt ((starts_dumps hv).length_pos.trans_le hn))
  induction h with
  | null =>
      intro n hn rest _
      obtain ⟨n, rfl⟩ := hsucc _ .null n hn
      rfl
  | bool b =>
      intro n hn rest _
      obtain ⟨n, rfl⟩ := hsucc _ (.bool b) n hn
      cases b <;> rfl
  | int k =>
      intro n hn rest hrest
      obtain ⟨n, rfl⟩ := hsucc _ (.int k) n hn
      rw [dumps, scanOnce_number (scanNumber_intText k) hrest n.succ_pos, readInt_intText]
      rfl
  | float x hx =>
      intro n hn rest hrest
      obtain ⟨literal, hscan, hfloat, hvalue⟩ := F.scanNumber_repr x hx
      obtain ⟨n, rfl⟩ := hsucc _ (.float x hx) n hn
      rw [dumps, scanOnce_number hscan hrest n.succ_pos, if_pos hfloat, hvalue]
  | str s =>
      intro n hn rest _
      obtain ⟨n, rfl⟩ := hsucc _ (.str s) n hn
      rw [dumps, quoted, List.cons_append, List.cons_append, scanOnce, if_pos rfl,
        ← List.cons_append, ← List.cons_append, ← quoted, scanStr_quoted]
      rfl
  | arr items hitems ih =>
      intro n hn
      obtain ⟨n, rfl⟩ := hsucc _ (.arr items hitems) n hn
      exact scanOnce_arr hitems hn fun v hv => ih v hv n
  | obj members hkeys hmembers ih =>
      intro n hn
      obtain ⟨n, rfl⟩ := hsucc _ (.obj members hkeys hmembers) n hn
      exact scanOnce_obj hkeys hmembers hn fun m hm => ih m hm n

/-- **A value is read as it was written.** -/
theorem loads_dumps {v : Json} (h : IsValue F v) : loads F (dumps F v) = some v := by
  have hstarts := starts_dumps h
  have hmark : (dumps F v).head? ≠ some '\uFEFF' := by
    obtain ⟨c, rest, heq, -, -, hmark⟩ := hstarts
    rw [heq]
    exact fun hsome => hmark (Option.some.inj hsome)
  have hscan := scanOnce_dumps h _ (Nat.le_succ _) [] delimited_nil
  rw [List.append_nil] at hscan
  rw [loads, if_neg hmark, hstarts.skipBlanks, hscan]
  rfl

/-- **A record is read as it was written.** -/
theorem loads_dumpsRecord {members : List (String × Json)} (hkeys : (members.map Prod.fst).Nodup)
    (hmembers : ∀ m ∈ members, IsValue F m.2) :
    loads F (dumpsRecord F members) = some (.obj members) := by
  cases members with
  | nil => rfl
  | cons m members =>
      obtain ⟨n, hn⟩ : ∃ n, (dumpsRecord F (m :: members)).length = n := ⟨_, rfl⟩
      have hlength := hn
      rw [dumpsRecord] at hlength
      simp only [List.length_cons, List.length_append] at hlength
      have hscan : ∀ v ∈ m :: members, Reads F (scanOnce F n) v.2 := by
        intro v hv
        refine scanOnce_dumps (hmembers v hv) n ?_
        rcases List.mem_cons.1 hv with rfl | hv
        · omega
        · have := length_dumps_le_members (F := F) hv [' ']
          omega
      have hblank : ∀ c ∈ [' '], isBlank c := List.forall_mem_singleton.2 rfl
      have hone := scanOnce_spaced hblank hkeys hmembers hscan []
      have htext : dumpsRecord F (m :: members) = '{' :: (quoted m.1.toList ++
          (':' :: ([' '] ++ (dumps F m.2 ++ (spacedMembers F [' '] members ++ []))))) := by
        rw [List.append_nil]
        rfl
      have hmark : (dumpsRecord F (m :: members)).head? ≠ some '\uFEFF' := by
        rw [htext, List.head?_cons]
        exact fun h => absurd (Option.some.inj h) (by decide)
      rw [loads, if_neg hmark, hn, htext, skipBlanks_cons rfl, hone]
      rfl

/-- A record of printed values is printed. -/
theorem isPrinted_dumpsRecord {members : List (String × Json)}
    (h : ∀ m ∈ members, ∀ c ∈ dumps F m.2, IsPrinted c) :
    ∀ c ∈ dumpsRecord F members, IsPrinted c := by
  have hopen : IsPrinted '{' := by decide
  have hclose : IsPrinted '}' := by decide
  have hcolon : IsPrinted ':' := by decide
  have hcomma : IsPrinted ',' := by decide
  have hblank : IsPrinted ' ' := by decide
  have hmember : ∀ m ∈ members, ∀ c ∈ quoted m.1.toList ++ (':' :: ' ' :: dumps F m.2),
      IsPrinted c := by
    intro m hm
    rw [List.forall_mem_append, List.forall_mem_cons, List.forall_mem_cons]
    exact ⟨isPrinted_quoted _, hcolon, hblank, h m hm⟩
  have hothers : ∀ others ⊆ members, ∀ c ∈ spacedMembers F [' '] others, IsPrinted c := by
    intro others hsub
    induction others with
    | nil => exact List.forall_mem_singleton.2 hclose
    | cons m others ih =>
        rw [List.cons_subset] at hsub
        have hm := hmember m hsub.1
        rw [List.forall_mem_append, List.forall_mem_cons, List.forall_mem_cons] at hm
        rw [spacedMembers]
        simp only [List.singleton_append, List.forall_mem_cons, List.forall_mem_append]
        exact ⟨hcomma, hblank, hm.1, hm.2.1, hm.2.2.1, hm.2.2.2, ih hsub.2⟩
  cases members with
  | nil => exact List.forall_mem_cons.2 ⟨hopen, List.forall_mem_singleton.2 hclose⟩
  | cons m members =>
      have hm := hmember m List.mem_cons_self
      rw [List.forall_mem_append, List.forall_mem_cons, List.forall_mem_cons] at hm
      rw [dumpsRecord]
      simp only [List.forall_mem_cons, List.forall_mem_append]
      exact ⟨hopen, hm.1, hm.2.1, hm.2.2.1, hm.2.2.2, hothers members (List.subset_cons_self m _)⟩

end Mcp
end CognitiveEngine
