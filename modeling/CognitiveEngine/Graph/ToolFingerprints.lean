/-
# Fingerprints of tool calls

`generate_tool_hash` is to tell tool calls apart and to find equal ones, however their
arguments are listed: it hashes the name and the text of `sorted(args.items())`.  The
sort orders the members of the arguments themselves.  It does not get into their
values, where a nested object is written with its members as they come.

`toolHash_eq_iff` says what equal hashes mean, given that the hash function and `str`
tell apart what differs: equal names, and the same members.  `canonicalFor_iff` is what
is missing to equality of JSON values: two calls that are equal must list the members
of their nested objects alike.
-/

import CognitiveEngine.Graph.Runs
import CognitiveEngine.Machine.JoinedKey
import CognitiveEngine.Machine.SortedKeys
import CognitiveEngine.Mcp.JsonText

namespace CognitiveEngine
namespace Graph

open Machine

namespace Json

mutual

/-- Equality of JSON values: the order of the members of an object, at any depth, does
not matter, and values of two kinds differ. -/
def equal : Json → Json → Bool
  | .null, .null => true
  | .bool a, .bool b => a == b
  | .int a, .int b => a == b
  | .float a, .float b => a == b
  | .str a, .str b => a == b
  | .arr a, .arr b => equalItems a b
  | .obj a, .obj b => a.length == b.length && equalMembers a b
  | _, _ => false

/-- Equality of the items of two arrays, position by position. -/
def equalItems : List Json → List Json → Bool
  | [], [] => true
  | a :: as, b :: bs => equal a b && equalItems as bs
  | _, _ => false

/-- Every member of the first object is equal to one of the second. -/
def equalMembers : List (String × Json) → List (String × Json) → Bool
  | [], _ => true
  | (k, v) :: as, bs =>
      (match bs.lookup k with
        | some w => equal v w
        | none => false) && equalMembers as bs

end

/-- A value made of null, booleans, integers, strings, arrays and objects; no object has
a key twice. -/
inductive Plain : Json → Prop
  | null : Plain .null
  | bool (b : Bool) : Plain (.bool b)
  | int (n : ℤ) : Plain (.int n)
  | str (s : String) : Plain (.str s)
  | arr (items : List Json) (h : ∀ item ∈ items, Plain item) : Plain (.arr items)
  | obj (members : List (String × Json)) (hkeys : (members.map Prod.fst).Nodup)
      (h : ∀ m ∈ members, Plain m.2) : Plain (.obj members)

/-- The members of a plain object. -/
theorem Plain.members {members : List (String × Json)} (h : Plain (.obj members)) :
    (members.map Prod.fst).Nodup ∧ ∀ m ∈ members, Plain m.2 := by
  cases h with
  | obj _ hkeys hmembers => exact ⟨hkeys, hmembers⟩

theorem equalMembers_iff {as bs : List (String × Json)} :
    equalMembers as bs ↔ ∀ m ∈ as, ∃ w, bs.lookup m.1 = some w ∧ equal m.2 w := by
  induction as with
  | nil => simp [equalMembers]
  | cons m as ih =>
      rw [equalMembers, Bool.and_eq_true, ih, List.forall_mem_cons]
      refine and_congr_left fun _ => ?_
      cases bs.lookup m.1 <;> simp

theorem equalItems_self {items : List Json} (h : ∀ item ∈ items, equal item item) :
    equalItems items items := by
  induction items with
  | nil => rfl
  | cons item items ih =>
      rw [List.forall_mem_cons] at h
      rw [equalItems, h.1, ih h.2]
      rfl

/-- Objects with the same members are equal, in whatever order they have them. -/
theorem equal_obj_of_perm {as bs : List (String × Json)} (hkeys : (bs.map Prod.fst).Nodup)
    (hperm : as.Perm bs) (h : ∀ m ∈ as, equal m.2 m.2) : equal (.obj as) (.obj bs) := by
  rw [equal, Bool.and_eq_true, equalMembers_iff]
  refine ⟨beq_iff_eq.2 hperm.length_eq, fun m hm => ⟨m.2, ?_, h m hm⟩⟩
  exact (lookup_eq_some_iff hkeys).2 (hperm.mem_iff.1 hm)

/-- **A value is equal to itself.** -/
theorem Plain.equal_self {v : Json} (h : Plain v) : equal v v := by
  induction h with
  | null => rfl
  | bool b => exact beq_self_eq_true b
  | int n => exact beq_self_eq_true n
  | str s => exact beq_self_eq_true s
  | arr items _ ih => exact equalItems_self ih
  | obj members hkeys _ ih => exact equal_obj_of_perm hkeys (List.Perm.refl _) ih

/-- **Objects have the same members exactly when they are equal and equal values of one
key are the same value.** -/
theorem perm_iff_equal {as bs : List (String × Json)} (ha : Plain (.obj as))
    (hb : Plain (.obj bs)) :
    as.Perm bs ↔ equal (.obj as) (.obj bs) ∧
      ∀ key v w, (key, v) ∈ as → (key, w) ∈ bs → v = w := by
  obtain ⟨hka, hma⟩ := ha.members
  obtain ⟨hkb, -⟩ := hb.members
  constructor
  · intro hperm
    refine ⟨equal_obj_of_perm hkb hperm fun m hm => (hma m hm).equal_self, fun key v w hv hw => ?_⟩
    exact eq_of_mem_of_mem hkb (hperm.mem_iff.1 hv) hw
  · rintro ⟨hequal, hsame⟩
    rw [equal, Bool.and_eq_true, beq_iff_eq, equalMembers_iff] at hequal
    refine (List.subperm_of_subset hka.of_map fun m hm => ?_).perm_of_length_le hequal.1.ge
    obtain ⟨w, hw, -⟩ := hequal.2 m hm
    have hmem : (m.1, w) ∈ bs := (lookup_eq_some_iff hkb).1 hw
    have heq : m.2 = w := hsame m.1 m.2 w hm hmem
    rwa [← heq] at hmem

end Json

/-! ### What a hash tells -/

/-- Letters, digits, underscore and hyphen. -/
def ToolName (name : String) : Prop := ∀ c ∈ name.toList, c.isAlphanum ∨ c = '_' ∨ c = '-'

/-- A name does not have the bracket that opens the text of the arguments. -/
theorem ToolName.bracket_not_mem {name : String} (h : ToolName name) : '[' ∉ name.toList := by
  intro hmem
  rcases h _ hmem with hc | hc | hc
  · exact absurd hc (by decide)
  · exact absurd hc (by decide)
  · exact absurd hc (by decide)

/-- A name does not go on into the text of the arguments. -/
theorem not_textOverhangs {name name' text text' : String} (hn : ToolName name)
    (ht' : text'.toList.head? = some '[') : ¬ TextOverhangs "_" name text name' text' := by
  rintro ⟨x, rfl, rfl⟩
  rw [String.toList_append, String.toList_append, List.head?_append, List.head?_append] at ht'
  cases hx : x.toList.head? with
  | none =>
      rw [hx, Option.none_or, show "_".toList.head? = some '_' by decide] at ht'
      exact absurd ht' (by simp)
  | some c =>
      rw [hx] at ht'
      obtain rfl := Option.some.inj ht'
      refine hn.bracket_not_mem ?_
      rw [String.toList_append]
      exact List.mem_append_right _ (List.mem_of_mem_head? hx)

/-- **The text that is hashed can be taken apart**: the first bracket ends the name and
the separator. -/
theorem eq_of_texts {name name' text text' : String} (hn : ToolName name) (hn' : ToolName name')
    (ht : text.toList.head? = some '[') (ht' : text'.toList.head? = some '[')
    (h : name ++ "_" ++ text = name' ++ "_" ++ text') : name = name' ∧ text = text' := by
  have hsep : "_".toList = ['_'] := rfl
  rcases (text_joined_eq_iff hsep).1 h with heq | hover | hover
  · exact heq
  · exact absurd hover (not_textOverhangs hn ht')
  · exact absurd hover (not_textOverhangs hn' ht)

section Faithful

variable {rt : Runtime}

/-- `str` tells lists of members apart that differ, the order of the members included. -/
def StrInjective (rt : Runtime) : Prop :=
  ∀ items items', (Json.obj items).Plain → (Json.obj items').Plain →
    rt.strItems items = rt.strItems items' → items = items'

/-- The text of a list starts with its bracket. -/
def StrOpens (rt : Runtime) : Prop := ∀ items, (rt.strItems items).toList.head? = some '['

/-- The sorted members are those of the object. -/
theorem plain_sortKeys {args : List (String × Json)} (h : (Json.obj args).Plain) :
    (Json.obj (sortKeys args)).Plain := by
  obtain ⟨hkeys, hmembers⟩ := h.members
  have hperm := sortKeys_perm args
  exact .obj _ ((hperm.map Prod.fst).nodup_iff.2 hkeys) fun m hm =>
    hmembers m (hperm.mem_iff.1 hm)

/-- **Equal hashes are equal names and the same members.** -/
theorem toolHash_eq_iff (hmd5 : Function.Injective rt.md5Hexdigest) (hstr : StrInjective rt)
    (hopens : StrOpens rt) {name name' : String} (hn : ToolName name) (hn' : ToolName name')
    {args args' : List (String × Json)} (ha : (Json.obj args).Plain)
    (ha' : (Json.obj args').Plain) :
    generateToolHash rt name args = generateToolHash rt name' args' ↔
      name = name' ∧ args.Perm args' := by
  rw [← sortKeys_eq_iff ha.members.1]
  constructor
  · intro h
    obtain ⟨hname, htext⟩ := eq_of_texts hn hn' (hopens _) (hopens _) (hmd5 h)
    exact ⟨hname, hstr _ _ (plain_sortKeys ha) (plain_sortKeys ha') htext⟩
  · rintro ⟨rfl, h⟩
    show rt.md5Hexdigest (name ++ "_" ++ rt.strItems (sortKeys args)) = _
    rw [h]
    rfl

/-- The hashes of two calls are equal exactly when the calls are. -/
def CanonicalFor (rt : Runtime) (name name' : String) (args args' : List (String × Json)) : Prop :=
  generateToolHash rt name args = generateToolHash rt name' args' ↔
    name = name' ∧ Json.equal (.obj args) (.obj args')

/-- **The hash is canonical exactly up to the order in nested objects.**  Two calls are
hashed as what they are unless they are equal and have, under one key, equal values with
members in different orders. -/
theorem canonicalFor_iff (hmd5 : Function.Injective rt.md5Hexdigest) (hstr : StrInjective rt)
    (hopens : StrOpens rt) {name name' : String} (hn : ToolName name) (hn' : ToolName name')
    {args args' : List (String × Json)} (ha : (Json.obj args).Plain)
    (ha' : (Json.obj args').Plain) :
    CanonicalFor rt name name' args args' ↔
      (name = name' → Json.equal (.obj args) (.obj args') →
        ∀ key v w, (key, v) ∈ args → (key, w) ∈ args' → v = w) := by
  rw [CanonicalFor, toolHash_eq_iff hmd5 hstr hopens hn hn' ha ha', Json.perm_iff_equal ha ha']
  constructor
  · intro h hname hequal
    exact (h.2 ⟨hname, hequal⟩).2.2
  · intro h
    constructor
    · rintro ⟨hname, hequal, -⟩
      exact ⟨hname, hequal⟩
    · rintro ⟨hname, hequal⟩
      exact ⟨hname, hequal, h hname hequal⟩

end Faithful

/-! ### Two searches -/

/-- JSON texts without floats. -/
def noFloats : Mcp.FloatText where
  isFloat _ := False
  repr _ := []
  float _ := 0
  scanNumber_repr _ h := h.elim

theorem Json.Plain.isValue {v : Json} (h : v.Plain) : Mcp.IsValue noFloats v := by
  induction h with
  | null => exact .null
  | bool b => exact .bool b
  | int n => exact .int n
  | str s => exact .str s
  | arr items _ ih => exact .arr items ih
  | obj members hkeys _ ih => exact .obj members hkeys ih

/-- Plain values that are written alike are the same. -/
theorem Json.Plain.eq_of_dumps {v w : Json} (hv : v.Plain) (hw : w.Plain)
    (h : Mcp.dumps noFloats v = Mcp.dumps noFloats w) : v = w := by
  have hloads := Mcp.loads_dumps hv.isValue
  rw [h, Mcp.loads_dumps hw.isValue] at hloads
  exact (Option.some.inj hloads).symm

/-- The sorted arguments of a search. -/
def newsArgs : List (String × Json) := [("max_results", .int 5), ("query", .str "news")]

/-- `str` as Python has it for the search, and the JSON text in brackets for others. -/
def newsStr (items : List (String × Json)) : String :=
  if Mcp.dumps noFloats (.obj items) = Mcp.dumps noFloats (.obj newsArgs) then
    "[('max_results', 5), ('query', 'news')]"
  else String.ofList ('[' :: Mcp.dumps noFloats (.obj items))

/-- MD5 as it is for the search, and the text itself behind a mark for others. -/
def newsMd5 (text : String) : String :=
  if text = "search_web_[('max_results', 5), ('query', 'news')]" then
    "2fe401d1801680121291689c08645c48"
  else "#" ++ text

/-- A process with these two. -/
def newsRuntime : Runtime := { Runtime.plain with md5Hexdigest := newsMd5, strItems := newsStr }

theorem newsMd5_injective : Function.Injective newsMd5 := by
  have hmark : ∀ text, "2fe401d1801680121291689c08645c48" ≠ "#" ++ text := by
    intro text h
    have hhead := congrArg (fun s => s.toList.head?) h
    rw [String.toList_append] at hhead
    exact absurd hhead (by simp)
  intro text text' h
  unfold newsMd5 at h
  split_ifs at h with ht ht' ht'
  · exact ht.trans ht'.symm
  · exact absurd h (hmark text')
  · exact absurd h.symm (hmark text)
  · exact (String.append_right_inj _).1 h

/-- An object is not written like the text of the search. -/
theorem newsText_ne (items : List (String × Json)) :
    "[('max_results', 5), ('query', 'news')]" ≠
      String.ofList ('[' :: Mcp.dumps noFloats (.obj items)) := by
  intro h
  have hlist := congrArg (fun s => s.toList.tail.head?) h
  rw [String.toList_ofList, List.tail_cons] at hlist
  cases items with
  | nil => exact absurd hlist (by decide)
  | cons m items => exact absurd hlist (by simp [Mcp.dumps])

theorem strInjective_news : StrInjective newsRuntime := by
  intro items items' hp hp' h
  have hdumps : Mcp.dumps noFloats (.obj items) = Mcp.dumps noFloats (.obj items') := by
    change newsStr items = newsStr items' at h
    unfold newsStr at h
    split_ifs at h with hi hi' hi'
    · exact hi.trans hi'.symm
    · exact absurd h (newsText_ne items')
    · exact absurd h.symm (newsText_ne items)
    · exact (List.cons.inj (String.ofList_injective h)).2
  exact Json.obj.inj (hp.eq_of_dumps hp' hdumps)

theorem strOpens_news : StrOpens newsRuntime := by
  intro items
  show (newsStr items).toList.head? = some '['
  unfold newsStr
  split_ifs
  · decide
  · rw [String.toList_ofList]
    rfl

theorem toolName_search : ToolName "search_web" := by
  have hall : ("search_web".toList.all fun c => c.isAlphanum || c == '_' || c == '-') = true := by
    decide
  intro c hc
  simpa [or_assoc] using List.all_eq_true.1 hall c hc

/-- The same search with its arguments the other way round is hashed alike. -/
theorem canonicalFor_news :
    CanonicalFor newsRuntime "search_web" "search_web" newsArgs newsArgs.reverse := by
  have hplain : (Json.obj newsArgs).Plain := by
    refine .obj _ (by decide) ?_
    simp only [newsArgs, List.forall_mem_cons]
    exact ⟨.int 5, .str "news", by simp⟩
  have hplain' : (Json.obj newsArgs.reverse).Plain := by
    refine .obj _ (by decide) fun m hm => ?_
    exact hplain.members.2 m (List.mem_reverse.1 hm)
  refine (canonicalFor_iff newsMd5_injective strInjective_news strOpens_news toolName_search
    toolName_search hplain hplain').2 fun _ _ key v w hv hw => ?_
  exact eq_of_mem_of_mem hplain.members.1 hv (List.mem_reverse.1 hw)

/-- A search with a filter of two fields. -/
def filterArgs (fields : List (String × Json)) : List (String × Json) :=
  [("filter", .obj fields), ("query", .str "news")]

theorem plain_filterArgs {fields : List (String × Json)} (h : (Json.obj fields).Plain) :
    (Json.obj (filterArgs fields)).Plain := by
  refine .obj _ (by simp [filterArgs]) ?_
  simp only [filterArgs, List.forall_mem_cons]
  exact ⟨h, .str "news", by simp⟩

/-- **Equal filters whose fields are in another order are hashed as two.** -/
theorem not_canonicalFor_filter :
    ¬ ∀ rt, Function.Injective rt.md5Hexdigest → StrInjective rt → StrOpens rt →
      ∀ name name' args args', ToolName name → ToolName name' → (Json.obj args).Plain →
        (Json.obj args').Plain → CanonicalFor rt name name' args args' := by
  intro hall
  have hplain : (Json.obj [("from", .int 1), ("to", .int 2)]).Plain := by
    refine .obj _ (by decide) ?_
    simp only [List.forall_mem_cons]
    exact ⟨.int 1, .int 2, by simp⟩
  have hplain' : (Json.obj [("to", .int 2), ("from", .int 1)]).Plain := by
    refine .obj _ (by decide) ?_
    simp only [List.forall_mem_cons]
    exact ⟨.int 2, .int 1, by simp⟩
  have hcanon := hall newsRuntime newsMd5_injective strInjective_news strOpens_news _ _ _ _
    toolName_search toolName_search (plain_filterArgs hplain) (plain_filterArgs hplain')
  have hequal : Json.equal (.obj (filterArgs [("from", .int 1), ("to", .int 2)]))
      (.obj (filterArgs [("to", .int 2), ("from", .int 1)])) := by decide
  have hperm := ((toolHash_eq_iff newsMd5_injective strInjective_news strOpens_news
    toolName_search toolName_search (plain_filterArgs hplain) (plain_filterArgs hplain')).1
      (hcanon.2 ⟨rfl, hequal⟩)).2
  have hmem := hperm.mem_iff.1 (List.mem_cons_self (a := ("filter", _)))
  simp [filterArgs] at hmem

end Graph
end CognitiveEngine
