/-
# Server-sent events

The bytes of an event stream, and the events that a client makes of them.  A line ends at
a carriage return, at a newline or at the two together.  What stands before its first
colon is the name of a field, and what comes after it the value, less one blank.  An empty
line ends an event; the lines of its data are joined by a newline.  An event without data
is none, and a field of another name is left out.

A text is written as one event after `data: ` (`frame`).  What is read of it has no more
characters than the text has besides its line ends (`frameEvents_spec`), so texts are
read as they were written exactly when they have none (`parse_frames`, `data_eq_iff`).
-/

import CognitiveEngine.Machine.Utf8

namespace CognitiveEngine
namespace Machine
namespace EventStream

/-! ### Lines -/

/-- A carriage return or a newline. -/
def isLineEnd (c : Char) : Bool := c = '\n' || c = '\r'

/-- A text without line ends. -/
def Plain (text : List Char) : Prop := ∀ c ∈ text, isLineEnd c = false

instance (text : List Char) : Decidable (Plain text) :=
  List.decidableBAll (fun c => isLineEnd c = false) text

/-- The lines that end in a text, after some characters of the first line; a newline right
after a carriage return ends nothing. -/
def linesFrom (current : List Char) (afterReturn : Bool) : List Char → List (List Char)
  | [] => []
  | c :: cs =>
      if c = '\n' ∧ afterReturn then linesFrom [] false cs
      else if isLineEnd c then current :: linesFrom [] (c = '\r') cs
      else linesFrom (current ++ [c]) false cs

/-- The lines that end in a text. -/
def lines (text : List Char) : List (List Char) := linesFrom [] false text

theorem lines_nil : lines [] = [] := rfl

/-- One character, not after a carriage return. -/
theorem linesFrom_cons (current : List Char) (c : Char) (text : List Char) :
    linesFrom current false (c :: text)
      = if isLineEnd c then current :: linesFrom [] (c = '\r') text
        else linesFrom (current ++ [c]) false text := by
  rw [linesFrom, if_neg (fun h => Bool.false_ne_true h.2)]

theorem linesFrom_append_newline (current text rest : List Char) (afterReturn : Bool) :
    linesFrom current afterReturn (text ++ '\n' :: rest)
      = linesFrom current afterReturn (text ++ ['\n']) ++ lines rest := by
  induction text generalizing current afterReturn with
  | nil => cases afterReturn <;> rfl
  | cons c text ih =>
      rw [List.cons_append, List.cons_append, linesFrom, linesFrom]
      split_ifs
      · exact ih [] false
      · rw [ih [] (c = '\r'), List.cons_append]
      · exact ih (current ++ [c]) false

/-- After a newline the lines start afresh. -/
theorem lines_append_newline (text rest : List Char) :
    lines (text ++ '\n' :: rest) = lines (text ++ ['\n']) ++ lines rest :=
  linesFrom_append_newline [] text rest false

/-- What stands before the text belongs to its first line. -/
theorem linesFrom_append_left (before current text : List Char) :
    linesFrom (before ++ current) false text
      = (linesFrom current false text).modifyHead (before ++ ·) := by
  induction text generalizing current with
  | nil => rfl
  | cons c text ih =>
      rw [linesFrom_cons, linesFrom_cons]
      split_ifs
      · rw [List.modifyHead_cons]
      · rw [List.append_assoc, ih]

/-- Characters that end no line. -/
theorem linesFrom_of_plain {text : List Char} (h : Plain text) (current rest : List Char) :
    linesFrom current false (text ++ rest) = linesFrom (current ++ text) false rest := by
  induction text generalizing current with
  | nil => rw [List.append_nil, List.nil_append]
  | cons c text ih =>
      rw [Plain, List.forall_mem_cons] at h
      rw [List.cons_append, linesFrom_cons, h.1, if_neg Bool.false_ne_true, ih h.2,
        List.append_assoc, List.singleton_append]

/-- The lines have no more characters than the text has besides its line ends. -/
theorem length_linesFrom_le (current text : List Char) (afterReturn : Bool) :
    (linesFrom current afterReturn text).flatten.length
      ≤ current.length + (text.filter fun c => !isLineEnd c).length := by
  induction text generalizing current afterReturn with
  | nil => exact Nat.zero_le _
  | cons c text ih =>
      rw [linesFrom]
      split_ifs with hafter hend
      · have hrest := ih [] false
        rw [hafter.1, List.filter_cons_of_neg (by decide)]
        rw [List.length_nil] at hrest
        omega
      · have hrest := ih [] (c = '\r')
        rw [List.filter_cons_of_neg (by simp [hend]), List.flatten_cons, List.length_append]
        rw [List.length_nil] at hrest
        omega
      · have hrest := ih (current ++ [c]) false
        rw [List.length_append, List.length_singleton] at hrest
        rw [List.filter_cons_of_pos (by simp [hend]), List.length_cons]
        omega

/-- A text that a newline ends has a first line. -/
theorem linesFrom_ne_nil (current text : List Char) :
    linesFrom current false (text ++ ['\n']) ≠ [] := by
  induction text generalizing current with
  | nil => exact List.cons_ne_nil _ _
  | cons c text ih =>
      rw [List.cons_append, linesFrom_cons]
      split_ifs
      · exact List.cons_ne_nil _ _
      · exact ih (current ++ [c])

/-! ### Events -/

/-- An event. -/
structure Event where
  type : List Char
  data : List Char
  lastEventId : List Char

/-- What has been read of the next event; its data are a list of lines. -/
structure Parser where
  type : List Char
  data : List (List Char)
  lastEventId : List Char

namespace Parser

/-- Before the first line. -/
def fresh : Parser := ⟨[], [], []⟩

/-- A field.  The time of `retry` is of no matter to the events. -/
def field (s : Parser) (name value : List Char) : Parser :=
  if name = "data".toList then { s with data := s.data ++ [value] }
  else if name = "event".toList then { s with type := value }
  else if name = "id".toList ∧ '\x00' ∉ value then { s with lastEventId := value }
  else s

/-- The end of an event. -/
def dispatch (s : Parser) : List Event × Parser :=
  let s' : Parser := { s with type := [], data := [] }
  if s.data = [] then ([], s')
  else
    ([⟨if s.type = [] then "message".toList else s.type, ['\n'].intercalate s.data,
      s.lastEventId⟩], s')

end Parser

/-- What comes after a colon, less one blank. -/
def withoutBlank : List Char → List Char
  | ' ' :: value => value
  | value => value

/-- The name of the field in a line; a comment has the empty name. -/
def fieldName (line : List Char) : List Char := line.takeWhile (· ≠ ':')

/-- The value of the field in a line. -/
def fieldValue (line : List Char) : List Char := withoutBlank (line.dropWhile (· ≠ ':')).tail

namespace Parser

/-- A line: the events it ends, and what has been read after it. -/
def line (s : Parser) (line : List Char) : List Event × Parser :=
  if line = [] then s.dispatch else ([], s.field (fieldName line) (fieldValue line))

/-- Some lines. -/
def run : Parser → List (List Char) → List Event × Parser
  | s, [] => ([], s)
  | s, l :: ls => ((s.line l).1 ++ ((s.line l).2.run ls).1, ((s.line l).2.run ls).2)

end Parser

/-- The events of a text. -/
def events (text : List Char) : List Event := (Parser.fresh.run (lines text)).1

/-- A byte order mark at the start is left out. -/
def withoutBom : List Char → List Char
  | c :: cs => if c = Char.ofNat 0xFEFF then cs else c :: cs
  | [] => []

/-- The events of some bytes. -/
def parse (bytes : List UInt8) : List Event := events (withoutBom (Utf8.decode bytes))

/-- The data of some events, one after the other. -/
def dataOf (es : List Event) : List Char := es.flatMap Event.data

namespace Parser

/-- Nothing has been read of the next event. -/
structure Idle (s : Parser) : Prop where
  type : s.type = []
  data : s.data = []

/-- The data read so far, as the event would have them. -/
def buffer (s : Parser) : List Char := ['\n'].intercalate s.data

theorem run_append (s : Parser) (ls ls' : List (List Char)) :
    s.run (ls ++ ls') = ((s.run ls).1 ++ ((s.run ls).2.run ls').1, ((s.run ls).2.run ls').2) := by
  induction ls generalizing s with
  | nil => rfl
  | cons l ls ih => simp only [List.cons_append, run, ih, List.append_assoc]

/-- An empty line leaves nothing open. -/
theorem idle_line_nil (s : Parser) : (s.line []).2.Idle := by
  rw [line, if_pos rfl, dispatch]
  split_ifs <;> exact ⟨rfl, rfl⟩

/-- One more line of data. -/
theorem length_intercalate_concat_le (data : List (List Char)) (value : List Char) :
    (['\n'].intercalate (data ++ [value])).length
      ≤ (['\n'].intercalate data).length + 1 + value.length := by
  induction data with
  | nil =>
      rw [List.nil_append, List.intercalate_singleton]
      omega
  | cons first data ih =>
      cases data with
      | nil =>
          rw [List.singleton_append, List.intercalate_cons_cons, List.intercalate_singleton,
            List.intercalate_singleton, List.length_append, List.length_append]
          exact Nat.le_refl _
      | cons second data =>
          rw [List.cons_append] at ih ⊢
          rw [List.cons_append, List.intercalate_cons_cons, List.intercalate_cons_cons]
          simp only [List.length_append, List.length_singleton] at ih ⊢
          omega

/-- A field of data is longer than its value. -/
theorem length_fieldValue_lt {l : List Char} (h : fieldName l = "data".toList) :
    1 + (fieldValue l).length ≤ l.length := by
  have hsplit := congrArg List.length (List.takeWhile_append_dropWhile (p := (· ≠ ':')) (l := l))
  rw [List.length_append, ← fieldName, h] at hsplit
  have hblank : ∀ value, (withoutBlank value).length ≤ value.length := by
    intro value
    unfold withoutBlank
    split
    · exact Nat.le_succ _
    · exact Nat.le_refl _
  have hvalue := hblank (l.dropWhile (· ≠ ':')).tail
  rw [List.length_tail] at hvalue
  have hdata : "data".toList.length = 4 := by decide
  rw [fieldValue]
  omega

/-- **What one line adds to the data** has no more characters than the line. -/
theorem length_line_le (s : Parser) (l : List Char) :
    (dataOf (s.line l).1).length + (s.line l).2.buffer.length ≤ s.buffer.length + l.length := by
  by_cases hl : l = []
  · rw [line, if_pos hl, dispatch]
    by_cases hdata : s.data = []
    · rw [if_pos hdata]
      exact Nat.zero_le _
    · rw [if_neg hdata]
      rw [dataOf, List.flatMap_singleton]
      exact Nat.add_le_add_left (Nat.zero_le _) _
  · rw [line, if_neg hl, field]
    split_ifs with hdata
    · have hvalue := length_fieldValue_lt hdata
      have hbuffer := length_intercalate_concat_le s.data (fieldValue l)
      simp only [dataOf, List.flatMap_nil, List.length_nil, buffer]
      omega
    all_goals exact Nat.le_trans (Nat.le_of_eq (Nat.zero_add _)) (Nat.le_add_right _ _)

/-- What some lines add has no more characters than they. -/
theorem length_run_le (s : Parser) (ls : List (List Char)) :
    (dataOf (s.run ls).1).length + (s.run ls).2.buffer.length
      ≤ s.buffer.length + ls.flatten.length := by
  induction ls generalizing s with
  | nil => exact Nat.le_of_eq (Nat.zero_add _)
  | cons l ls ih =>
      have hline := s.length_line_le l
      have hrest := ih (s.line l).2
      rw [run, List.flatten_cons, List.length_append]
      dsimp only
      rw [dataOf, List.flatMap_append, List.length_append, ← dataOf, ← dataOf]
      omega

/-- The end of the last event leaves nothing open. -/
theorem idle_run_concat (s : Parser) (ls : List (List Char)) : (s.run (ls ++ [[]])).2.Idle := by
  rw [run_append]
  exact idle_line_nil _

end Parser

/-! ### Texts as events -/

/-- `data: ` and an empty line around a text. -/
def frame (text : List Char) : List Char := "data: ".toList ++ text ++ ['\n', '\n']

/-- The lines of a frame: `data: ` and the first line of the text, its other lines, and the
empty one. -/
theorem lines_frame (text : List Char) :
    ∃ first others, lines (text ++ ['\n']) = first :: others ∧
      ∀ rest, lines (frame text ++ rest)
        = (("data: ".toList ++ first) :: others ++ [[]]) ++ lines rest := by
  obtain ⟨first, others, hlines⟩ := List.exists_cons_of_ne_nil (linesFrom_ne_nil [] text)
  refine ⟨first, others, hlines, fun rest => ?_⟩
  have hfield : lines ("data: ".toList ++ text ++ ['\n'])
      = ("data: ".toList ++ first) :: others := by
    rw [lines, List.append_assoc, linesFrom_of_plain (by decide), List.nil_append,
      ← List.append_nil "data: ".toList, linesFrom_append_left, hlines, List.modifyHead_cons,
      List.append_nil]
  have hsplit : frame text ++ rest = ("data: ".toList ++ text) ++ '\n' :: ('\n' :: rest) :=
    List.append_assoc _ _ _
  have hempty : lines ('\n' :: rest) = [[]] ++ lines rest := lines_append_newline [] rest
  rw [hsplit, lines_append_newline, hfield, hempty, List.append_assoc]

/-- The first line of a frame is a line of data. -/
theorem line_data (s : Parser) (text : List Char) :
    s.line ("data: ".toList ++ text) = ([], { s with data := s.data ++ [text] }) := rfl

/-- The events that a frame makes when nothing is open. -/
def frameEvents (s : Parser) (text : List Char) : List Event × Parser := s.run (lines (frame text))

/-- **A frame is read on its own:** what comes after it is read as if nothing had been
open, and its data have no more characters than the text has besides its line ends. -/
theorem frameEvents_spec {s : Parser} (hs : s.Idle) (text : List Char) :
    (∀ rest, (s.run (lines (frame text ++ rest))).1
      = (frameEvents s text).1 ++ ((frameEvents s text).2.run (lines rest)).1) ∧
    (frameEvents s text).2.Idle ∧
    (dataOf (frameEvents s text).1).length ≤ (text.filter fun c => !isLineEnd c).length := by
  obtain ⟨first, others, hlines, hframe⟩ := lines_frame text
  have hnone := hframe []
  rw [List.append_nil, lines_nil, List.append_nil] at hnone
  refine ⟨fun rest => ?_, ?_, ?_⟩
  · rw [frameEvents, hnone, hframe, Parser.run_append]
  · rw [frameEvents, hnone]
    exact s.idle_run_concat _
  · have hread := Parser.length_run_le { s with data := s.data ++ [first] } (others ++ [[]])
    have hlength := length_linesFrom_le [] (text ++ ['\n']) false
    have hfilter : (text ++ ['\n']).filter (fun c => !isLineEnd c)
        = text.filter fun c => !isLineEnd c := by
      rw [List.filter_append, List.filter_singleton]
      exact List.append_nil _
    rw [← lines, hlines, hfilter, List.flatten_cons, List.length_append, List.length_nil,
      Nat.zero_add] at hlength
    have hbuffer : Parser.buffer { s with data := s.data ++ [first] } = first := by
      rw [Parser.buffer, hs.data]
      exact List.intercalate_singleton
    have hempty : (List.flatten [([] : List Char)]).length = 0 := rfl
    rw [hbuffer, List.flatten_append, List.length_append, hempty] at hread
    rw [frameEvents, hnone, List.cons_append, Parser.run, line_data, List.nil_append]
    dsimp only at hread ⊢
    omega

/-- **A text without line ends is read as it was written.** -/
theorem frameEvents_of_plain {s : Parser} (hs : s.Idle) {text : List Char} (h : Plain text) :
    frameEvents s text = ([⟨"message".toList, text, s.lastEventId⟩], s) := by
  obtain ⟨first, others, hlines, hframe⟩ := lines_frame text
  have hone : lines (text ++ ['\n']) = [text] := by
    rw [lines, linesFrom_of_plain h, List.nil_append]
    rfl
  obtain ⟨rfl, rfl⟩ := List.cons.inj (hlines.symm.trans hone)
  have hnone := hframe []
  rw [List.append_nil, lines_nil, List.append_nil] at hnone
  obtain ⟨type, data, lastEventId⟩ := s
  obtain ⟨rfl, rfl⟩ := hs
  rw [frameEvents, hnone, List.singleton_append, Parser.run, line_data]
  simp [Parser.run, Parser.line, Parser.dispatch]

/-- The frames of some texts, one after the other. -/
theorem run_frames {s : Parser} (hs : s.Idle) (texts : List (List Char)) :
    ∃ (es : List Event) (s' : Parser), s'.Idle ∧
      (∀ rest, (s.run (lines (texts.flatMap frame ++ rest))).1 = es ++ (s'.run (lines rest)).1) ∧
      (dataOf es).length ≤ (texts.flatten.filter fun c => !isLineEnd c).length ∧
      ((∀ text ∈ texts, Plain text) → dataOf es = texts.flatten) := by
  induction texts generalizing s with
  | nil => exact ⟨[], s, hs, fun _ => rfl, Nat.le_refl _, fun _ => rfl⟩
  | cons text texts ih =>
      obtain ⟨hrun, hidle, hlength⟩ := frameEvents_spec hs text
      obtain ⟨es, s', hs', hrest, hdata, hplain⟩ := ih hidle
      refine ⟨(frameEvents s text).1 ++ es, s', hs', fun rest => ?_, ?_, fun h => ?_⟩
      · rw [List.flatMap_cons, List.append_assoc, hrun, hrest, List.append_assoc]
      · rw [dataOf, List.flatMap_append, List.length_append, List.flatten_cons,
          List.filter_append, List.length_append]
        exact Nat.add_le_add hlength hdata
      · rw [List.forall_mem_cons] at h
        rw [dataOf, List.flatMap_append, ← dataOf, ← dataOf, hplain h.2,
          frameEvents_of_plain hs h.1, List.flatten_cons]
        simp [dataOf]

/-- **What a client makes of some texts and a last one.**  The last one is read as it was
written when it has no line end, as an event of its own. -/
theorem parse_frames (texts : List (List Char)) {last : List Char} (hlast : Plain last) :
    ∃ es e, parse (Utf8.encode (texts.flatMap frame ++ frame last)) = es ++ [e] ∧ e.data = last ∧
      (dataOf es).length ≤ (texts.flatten.filter fun c => !isLineEnd c).length ∧
      ((∀ text ∈ texts, Plain text) → dataOf es = texts.flatten) := by
  have hfresh : Parser.fresh.Idle := ⟨rfl, rfl⟩
  obtain ⟨es, s, hs, hrest, hlength, hplain⟩ := run_frames hfresh texts
  refine ⟨es, ⟨"message".toList, last, s.lastEventId⟩, ?_, rfl, hlength, hplain⟩
  obtain ⟨text, htext⟩ : ∃ text, texts.flatMap frame ++ frame last = 'd' :: text := by
    cases texts <;> exact ⟨_, rfl⟩
  have hmark : withoutBom ('d' :: text) = 'd' :: text := by
    rw [withoutBom, if_neg (by decide)]
  rw [parse, Utf8.decode_encode, htext, hmark, ← htext, events, hrest, ← frameEvents,
    frameEvents_of_plain hs hlast]

/-- **When texts are read as they were written:** exactly when they have no line end. -/
theorem data_eq_iff {texts : List (List Char)} {es : List Event}
    (hlength : (dataOf es).length ≤ (texts.flatten.filter fun c => !isLineEnd c).length)
    (hplain : (∀ text ∈ texts, Plain text) → dataOf es = texts.flatten) :
    dataOf es = texts.flatten ↔ ∀ text ∈ texts, Plain text := by
  refine ⟨fun heq text htext c hc => ?_, hplain⟩
  rw [heq] at hlength
  have hall := List.length_filter_eq_length_iff.1
    (Nat.le_antisymm (List.length_filter_le _ _) hlength)
  have hchar := hall c (List.mem_flatten.2 ⟨text, htext, hc⟩)
  rwa [Bool.not_eq_true'] at hchar

end EventStream
end Machine
end CognitiveEngine
