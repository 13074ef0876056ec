/-
# What the browser makes of the stream

`ChatController.StreamChat` writes every chunk as `data: {chunk}` and an empty line,
in UTF-8.  `executeChatStream` (`wwwroot/js/chat.js`) decodes each read on its own,
splits it at the newlines and takes what follows `data: ` at the start of a line.

A chunk with a newline loses what comes after it, and a line that arrives in two reads
loses what is in the second.  `decoded_iff` says that these are the only ways to lose
text.  Only the last two bytes of a chunk that ends with U+FFFD may come later: the
decoder puts the same character for one that is broken off.
-/

import CognitiveEngine.Machine.JoinedKey
import CognitiveEngine.Machine.Reads
import CognitiveEngine.Machine.Utf8

namespace CognitiveEngine
namespace Web

open CognitiveEngine.Machine

/-! ### The encoder -/

/-- `data: `. -/
def dataField : List Char := "data: ".toList

/-- `$"data: {chunk}\n\n"`. -/
def frame (chunk : String) : List Char := dataField ++ chunk.toList ++ ['\n', '\n']

/-- The bytes that `StreamChat` writes for the chunks. -/
def written (chunks : List String) : List UInt8 :=
  chunks.flatMap fun chunk => Utf8.encode (frame chunk)

/-! ### The decoder -/

/-- `TextDecoder` leaves out a byte order mark at the start. -/
def withoutBom : List Char → List Char
  | c :: cs => if c = Char.ofNat 0xFEFF then cs else c :: cs
  | [] => []

/-- `actualToken` of a line; a line without `data: ` has none. -/
def actualToken (line : List Char) : List Char :=
  if dataField.isPrefixOf line then line.drop dataField.length else []

/-- What one read adds, once it is decoded. -/
def tokens (text : List Char) : List Char := (text.splitOn '\n').flatMap actualToken

/-- `chunkText` of a read, or of what is left of one after a newline. -/
def chunkText (fresh : Bool) (value : List UInt8) : List Char :=
  if fresh then withoutBom (Utf8.decode value) else Utf8.decode value

/-- What is shown of some reads. -/
def shownFrom : Bool → List (List UInt8) → List Char
  | _, [] => []
  | fresh, value :: reads => tokens (chunkText fresh value) ++ shownFrom true reads

/-- The final `aiAccumulatedText`. -/
def executeChatStream (reads : List (List UInt8)) : String := String.ofList (shownFrom true reads)

/-! ### Lines -/

theorem tokens_newline (text text' : List Char) :
    tokens (text ++ '\n' :: text') = tokens text ++ tokens text' := by
  rw [tokens, List.splitOn_append_cons_self, List.flatMap_append, tokens, tokens]

/-- A text without newline is one line. -/
theorem tokens_of_not_mem {text : List Char} (h : '\n' ∉ text) :
    tokens text = actualToken text := by
  rw [tokens, List.splitOn_eq_singleton h, List.flatMap_singleton]

/-- No newline is ever shown. -/
theorem not_mem_shownFrom (fresh : Bool) (reads : List (List UInt8)) :
    '\n' ∉ shownFrom fresh reads := by
  induction reads generalizing fresh with
  | nil => exact List.not_mem_nil
  | cons value reads ih =>
      rw [shownFrom, List.mem_append, not_or]
      refine ⟨fun hmem => ?_, ih true⟩
      obtain ⟨line, hline, htoken⟩ := List.mem_flatMap.1 hmem
      have hdrop : '\n' ∈ line := by
        unfold actualToken at htoken
        split at htoken
        · exact List.mem_of_mem_drop htoken
        · exact absurd htoken List.not_mem_nil
      exact not_mem_of_mem_splitOn hline hdrop

theorem withoutBom_newline (text text' : List Char) :
    withoutBom (text ++ '\n' :: text') = withoutBom text ++ '\n' :: text' := by
  cases text with
  | nil => rfl
  | cons c text =>
      rw [List.cons_append, withoutBom, withoutBom]
      split <;> rfl

theorem withoutBom_suffix (text : List Char) : withoutBom text <:+ text := by
  cases text with
  | nil => exact List.suffix_rfl
  | cons c text =>
      rw [withoutBom]
      split
      · exact List.suffix_cons c text
      · exact List.suffix_rfl

/-- **A newline cuts the stream:** what is before it is shown apart from what comes
after. -/
theorem shownFrom_newline (fresh : Bool) (before after : List (List UInt8)) (u v : List UInt8) :
    shownFrom fresh (before ++ (u ++ 10 :: v) :: after)
      = shownFrom fresh (before ++ [u]) ++ shownFrom false (v :: after) := by
  induction before generalizing fresh with
  | nil =>
      rw [List.nil_append, List.nil_append, shownFrom, shownFrom, shownFrom, shownFrom,
        chunkText, chunkText, chunkText, Utf8.decode_newline]
      cases fresh with
      | false => simp [tokens_newline]
      | true => simp [withoutBom_newline, tokens_newline]
  | cons value before ih =>
      rw [List.cons_append, List.cons_append, shownFrom, shownFrom, ih, List.append_assoc]

/-- Nothing is shown of reads that give nothing. -/
theorem shownFrom_of_flatten_eq_nil (fresh : Bool) {reads : List (List UInt8)}
    (h : reads.flatten = []) : shownFrom fresh reads = [] := by
  induction reads generalizing fresh with
  | nil => rfl
  | cons value reads ih =>
      rw [List.flatten_cons, List.append_eq_nil_iff] at h
      rw [shownFrom, ih true h.2, h.1]
      cases fresh <;> rfl

/-! ### Pieces of a line -/

/-- Of so many characters nothing is shown, or all but six of them at most. -/
def Loses (shown : List Char) (n : ℕ) : Prop := shown.length + 6 ≤ n ∨ shown = []

theorem Loses.append {shown shown' : List Char} {n m : ℕ} (h : Loses shown n)
    (h' : Loses shown' m) : Loses (shown ++ shown') (n + m) := by
  rcases h with h | rfl
  · refine .inl ?_
    have hle : shown'.length ≤ m := by
      rcases h' with h' | rfl
      · omega
      · exact Nat.zero_le _
    rw [List.length_append]
    omega
  · rcases h' with h' | rfl
    · exact .inl (by rw [List.nil_append]; omega)
    · exact .inr rfl

theorem Loses.mono {shown : List Char} {n m : ℕ} (h : Loses shown n) (hle : n ≤ m) :
    Loses shown m :=
  h.imp_left fun h => Nat.le_trans h hle

theorem Loses.length_le {shown : List Char} {n : ℕ} (h : Loses shown (6 + n)) :
    shown.length ≤ n := by
  rcases h with h | rfl
  · omega
  · exact Nat.zero_le _

/-- Two pieces that both lose characters do not add up. -/
theorem Loses.length_append_ne {shown shown' : List Char} {n m k : ℕ} (h : Loses shown n)
    (h' : Loses shown' m) (hn : 0 < n) (hm : 0 < m) (hk : 0 < k) (hsum : n + m = 6 + k) :
    (shown ++ shown').length ≠ k := by
  rw [List.length_append]
  rcases h with h | rfl
  · rcases h' with h' | rfl
    · omega
    · rw [List.length_nil]
      omega
  · rw [List.length_nil]
    rcases h' with h' | rfl
    · omega
    · rw [List.length_nil]
      omega

/-- A token comes with six characters that are not shown. -/
theorem loses_actualToken (line : List Char) : Loses (actualToken line) line.length := by
  unfold actualToken
  split
  · rename_i h
    obtain ⟨rest, rfl⟩ := List.isPrefixOf_iff_prefix.1 h
    refine .inl ?_
    rw [List.drop_left, List.length_append]
    exact Nat.le_of_eq (Nat.add_comm _ _)
  · exact .inr rfl

theorem chunkText_suffix (fresh : Bool) (value : List UInt8) :
    chunkText fresh value <:+ Utf8.decode value := by
  cases fresh with
  | false => exact List.suffix_rfl
  | true => exact withoutBom_suffix _

/-- A piece of a line loses six characters, or shows nothing. -/
theorem loses_piece (fresh : Bool) {value : List UInt8} (h : '\n' ∉ Utf8.decode value) :
    Loses (tokens (chunkText fresh value)) (Utf8.decode value).length := by
  have hsuffix := chunkText_suffix fresh value
  rw [tokens_of_not_mem fun hmem => h (hsuffix.subset hmem)]
  exact (loses_actualToken _).mono hsuffix.length_le

theorem newline_ne_replacement : '\n' ≠ Utf8.replacement := by decide

/-- A piece that begins inside a character shows nothing. -/
theorem tokens_of_replacement (fresh : Bool) {value : List UInt8} {text : List Char}
    (h : Utf8.decode value = Utf8.replacement :: text) (hnl : '\n' ∉ text) :
    tokens (chunkText fresh value) = [] := by
  have hline : chunkText fresh value = Utf8.replacement :: text := by
    unfold chunkText
    rw [h]
    cases fresh <;> rfl
  have hnl' : '\n' ∉ Utf8.replacement :: text := by simp [newline_ne_replacement, hnl]
  rw [hline, tokens_of_not_mem hnl']
  rfl

theorem tokens_nil (fresh : Bool) : tokens (chunkText fresh []) = [] := by
  cases fresh <;> rfl

theorem tokens_of_continuations (fresh : Bool) {conts bs : List UInt8}
    (hconts : ∀ b ∈ conts, Utf8.IsContinuation b) (hne : conts ≠ [])
    (hnl : '\n' ∉ Utf8.decode bs) : tokens (chunkText fresh (conts ++ bs)) = [] := by
  obtain ⟨b, conts, rfl⟩ := List.exists_cons_of_ne_nil hne
  refine tokens_of_replacement fresh (Utf8.decode_continuations hconts bs) fun hmem => ?_
  rcases List.mem_append.1 hmem with hmem | hmem
  · exact newline_ne_replacement (List.eq_of_mem_replicate hmem)
  · exact hnl hmem

/-- **One read of a line.**  What it is decoded to and what is left of the line have as
many characters as the line. -/
theorem exists_rest_of_line {value rest : List UInt8} {text : List Char} (hnl : '\n' ∉ text)
    (h : value ++ rest = Utf8.encode text) :
    ∃ tail text', rest = tail ++ Utf8.encode text' ∧ (∀ b ∈ tail, Utf8.IsContinuation b) ∧
      '\n' ∉ Utf8.decode value ∧ '\n' ∉ text' ∧
      (Utf8.decode value).length + text'.length = text.length := by
  rcases Utf8.encode_eq_append h with ⟨text₁, text₂, rfl, rfl, rfl⟩ |
    ⟨text₁, c, text₂, head, tail, rfl, rfl, rfl, hcut, hhead, htail⟩
  · rw [List.mem_append, not_or] at hnl
    refine ⟨[], text₂, rfl, List.forall_mem_nil _, ?_, hnl.2, ?_⟩
    · rw [Utf8.decode_encode]
      exact hnl.1
    · rw [Utf8.decode_encode, List.length_append]
  · rw [List.mem_append, List.mem_cons, not_or, not_or] at hnl
    refine ⟨tail, text₂, rfl, Utf8.isContinuation_of_tail hcut hhead, ?_, hnl.2.2, ?_⟩
    · rw [Utf8.decode_cut hcut hhead htail, List.mem_append, List.mem_singleton, not_or]
      exact ⟨hnl.1, newline_ne_replacement⟩
    · rw [Utf8.decode_cut hcut hhead htail, List.length_append, List.length_append,
        List.length_singleton, List.length_cons]
      omega

/-- **However a line is cut, it loses six characters, or nothing of it is shown.**  The
line may begin with the rest of a character. -/
theorem loses_line {reads : List (List UInt8)} {conts : List UInt8} {text : List Char}
    (fresh : Bool) (hconts : ∀ b ∈ conts, Utf8.IsContinuation b) (hnl : '\n' ∉ text)
    (h : reads.flatten = conts ++ Utf8.encode text) :
    Loses (shownFrom fresh reads) text.length := by
  induction reads generalizing fresh conts text with
  | nil => exact .inr rfl
  | cons value reads ih =>
      rw [List.flatten_cons] at h
      rw [shownFrom]
      rcases List.append_eq_append_iff.1 h with ⟨conts', rfl, hrest⟩ | ⟨value', rfl, hline⟩
      · -- The read ends inside the rest of the character.
        rw [List.forall_mem_append] at hconts
        have hnone : tokens (chunkText fresh value) = [] := by
          by_cases hne : value = []
          · rw [hne, tokens_nil]
          · rw [← List.append_nil value]
            exact tokens_of_continuations fresh hconts.1 hne List.not_mem_nil
        rw [hnone, List.nil_append]
        exact ih true hconts.2 hnl hrest
      · obtain ⟨tail, text', hrest, htail, hvalue, hnl', hlength⟩ :=
          exists_rest_of_line hnl hline.symm
        have hpiece : Loses (tokens (chunkText fresh (conts ++ value')))
            (Utf8.decode value').length := by
          by_cases hne : conts = []
          · rw [hne]
            exact loses_piece fresh hvalue
          · exact .inr (tokens_of_continuations fresh hconts hne hvalue)
        rw [← hlength]
        exact hpiece.append (ih true htail hnl' hrest)

/-! ### Lines that arrive whole -/

/-- The bytes at the end of a chunk that may come in another read: the decoder has put
U+FFFD for them already. -/
def spare (chunk : List Char) : ℕ := if chunk.getLast? = some Utf8.replacement then 2 else 0

/-- The bytes of a line that must come in one read. -/
def needed (chunk : List Char) : ℕ := (Utf8.encode (dataField ++ chunk)).length - spare chunk

theorem spare_lt {chunk front back : List Char} (hchunk : chunk ≠ []) (hback : back ≠ [])
    (h : dataField ++ chunk = front ++ back) : spare chunk < (Utf8.encode back).length := by
  have hlast : chunk.getLast? = back.getLast? := by
    rw [← List.getLast?_append_of_ne_nil dataField hchunk, h,
      List.getLast?_append_of_ne_nil front hback]
  obtain ⟨back, c, rfl⟩ := (List.eq_nil_or_concat' back).resolve_left hback
  rw [List.getLast?_concat] at hlast
  rw [spare, hlast, Utf8.encode_append, List.length_append]
  have hpos : 0 < (Utf8.encode [c]).length := by
    rw [Utf8.encode_cons, Utf8.encode_nil, List.append_nil]
    exact List.length_pos_iff.2 (Utf8.encodeChar_ne_nil c)
  by_cases hc : c = Utf8.replacement
  · obtain rfl := hc
    have hthree : (Utf8.encode [Utf8.replacement]).length = 3 := rfl
    rw [if_pos rfl]
    omega
  · rw [if_neg fun heq => hc (Option.some.inj heq)]
    omega

theorem actualToken_dataField (chunk : List Char) : actualToken (dataField ++ chunk) = chunk := by
  rw [actualToken, if_pos (List.isPrefixOf_iff_prefix.2 (List.prefix_append _ _)), List.drop_left]

/-- A chunk without newline is written on one line. -/
theorem not_mem_line {chunk : List Char} (hnl : '\n' ∉ chunk) : '\n' ∉ dataField ++ chunk := by
  have hfield : '\n' ∉ dataField := by decide
  rw [List.mem_append, not_or]
  exact ⟨hfield, hnl⟩

/-- A line decoded as a whole shows its chunk. -/
theorem tokens_dataField (fresh : Bool) {value : List UInt8} {chunk : List Char}
    (h : Utf8.decode value = dataField ++ chunk) (hnl : '\n' ∉ chunk) :
    tokens (chunkText fresh value) = chunk := by
  have hline : chunkText fresh value = dataField ++ chunk := by
    unfold chunkText
    rw [h]
    cases fresh <;> rfl
  rw [hline, tokens_of_not_mem (not_mem_line hnl), actualToken_dataField]

/-- A line whose end comes in another read does not show its chunk. -/
theorem shownFrom_ne_of_rest (fresh : Bool) {value tail : List UInt8}
    {reads : List (List UInt8)} {chunk text' : List Char} (hchunk : chunk ≠ [])
    (hlength : (Utf8.decode value).length + text'.length = (dataField ++ chunk).length)
    (hdecode : Utf8.decode value ≠ []) (htext' : text' ≠ []) (hnl : '\n' ∉ Utf8.decode value)
    (hnl' : '\n' ∉ text') (htail : ∀ b ∈ tail, Utf8.IsContinuation b)
    (hrest : reads.flatten = tail ++ Utf8.encode text') :
    shownFrom fresh (value :: reads) ≠ chunk := by
  have hpiece : Loses (tokens (chunkText fresh value)) (Utf8.decode value).length :=
    loses_piece fresh hnl
  have hothers : Loses (shownFrom true reads) text'.length := loses_line true htail hnl' hrest
  have hsix : dataField.length = 6 := rfl
  rw [List.length_append, hsix] at hlength
  intro heq
  refine hpiece.length_append_ne hothers (List.length_pos_iff.2 hdecode)
    (List.length_pos_iff.2 htext') (List.length_pos_iff.2 hchunk) hlength ?_
  rw [← heq, shownFrom]

/-- A line cut inside its last character shows U+FFFD for it. -/
theorem shownFrom_last_cut (fresh : Bool) {chunk : List Char} {c : Char} {head tail : List UInt8}
    {reads : List (List UInt8)} (hnl : '\n' ∉ chunk) (hcut : head ++ tail = Utf8.encodeChar c)
    (hhead : head ≠ []) (htail : tail ≠ []) (hrest : reads.flatten = tail) :
    shownFrom fresh ((Utf8.encode (dataField ++ chunk) ++ head) :: reads)
      = chunk ++ [Utf8.replacement] := by
  have hdecode : Utf8.decode (Utf8.encode (dataField ++ chunk) ++ head)
      = dataField ++ (chunk ++ [Utf8.replacement]) := by
    rw [Utf8.decode_cut hcut hhead htail, List.append_assoc]
  have hnl' : '\n' ∉ chunk ++ [Utf8.replacement] := by
    rw [List.mem_append, List.mem_singleton, not_or]
    exact ⟨hnl, newline_ne_replacement⟩
  have hothers : shownFrom true reads = [] := by
    have hempty : reads.flatten = tail ++ Utf8.encode [] := by
      rw [hrest, Utf8.encode_nil, List.append_nil]
    have hloses := loses_line true (Utf8.isContinuation_of_tail hcut hhead) List.not_mem_nil hempty
    refine hloses.resolve_left fun hlong => ?_
    rw [List.length_nil] at hlong
    omega
  rw [shownFrom, tokens_dataField fresh hdecode hnl', hothers, List.append_nil]

/-- The first read ends between two characters of the line. -/
theorem shownFrom_between_iff (fresh : Bool) {text₁ text₂ : List Char}
    {reads : List (List UInt8)} {chunk : List Char} (hchunk : chunk ≠ []) (hnl : '\n' ∉ chunk)
    (hne : text₁ ≠ []) (htext : dataField ++ chunk = text₁ ++ text₂)
    (hrest : reads.flatten = Utf8.encode text₂) :
    shownFrom fresh (Utf8.encode text₁ :: reads) = chunk ↔
      needed chunk ≤ (Utf8.encode text₁).length := by
  have hline := not_mem_line hnl
  have htotal : (Utf8.encode text₁).length + (Utf8.encode text₂).length
      = (Utf8.encode (dataField ++ chunk)).length := by
    rw [htext, Utf8.encode_append, List.length_append]
  rw [htext, List.mem_append, not_or] at hline
  rw [needed]
  by_cases htext₂ : text₂ = []
  · -- All of the line is in the read.
    rw [htext₂, Utf8.encode_nil] at hrest htotal
    rw [htext₂, List.append_nil] at htext
    have hdecode : Utf8.decode (Utf8.encode text₁) = dataField ++ chunk := by
      rw [Utf8.decode_encode, htext]
    rw [shownFrom, tokens_dataField fresh hdecode hnl, shownFrom_of_flatten_eq_nil true hrest,
      List.append_nil]
    rw [List.length_nil] at htotal
    exact iff_of_true rfl (by omega)
  · have hlength : (Utf8.decode (Utf8.encode text₁)).length + text₂.length
        = (dataField ++ chunk).length := by
      rw [Utf8.decode_encode, htext, List.length_append]
    have hdecode : Utf8.decode (Utf8.encode text₁) ≠ [] := by
      rw [Utf8.decode_encode]
      exact hne
    refine iff_of_false (shownFrom_ne_of_rest fresh hchunk hlength hdecode htext₂ ?_ hline.2
      (List.forall_mem_nil _) hrest) ?_
    · rw [Utf8.decode_encode]
      exact hline.1
    · have hspare := spare_lt hchunk htext₂ htext
      omega

/-- The first read ends inside of the last character: its bytes are shown as U+FFFD. -/
theorem shownFrom_inside_last_iff (fresh : Bool) {chunk : List Char} {c : Char}
    {head tail : List UInt8} {reads : List (List UInt8)} (hnl : '\n' ∉ chunk)
    (hcut : head ++ tail = Utf8.encodeChar c) (hhead : head ≠ []) (htail : tail ≠ [])
    (hrest : reads.flatten = tail) :
    shownFrom fresh ((Utf8.encode (dataField ++ chunk) ++ head) :: reads) = chunk ++ [c] ↔
      needed (chunk ++ [c]) ≤ (Utf8.encode (dataField ++ chunk) ++ head).length := by
  have htailpos := List.length_pos_iff.2 htail
  have htotal : (Utf8.encode (dataField ++ chunk) ++ head).length + tail.length
      = (Utf8.encode (dataField ++ (chunk ++ [c]))).length := by
    rw [← List.length_append, List.append_assoc, hcut, ← List.append_assoc,
      Utf8.encode_append (dataField ++ chunk), Utf8.encode_cons, Utf8.encode_nil, List.append_nil]
  rw [shownFrom_last_cut fresh hnl hcut hhead htail hrest, needed, spare, List.getLast?_concat,
    List.append_cancel_left_eq, List.singleton_inj]
  by_cases hc : c = Utf8.replacement
  · have hthree : head.length + tail.length = 3 := by
      rw [← List.length_append, hcut, hc]
      rfl
    have hheadpos := List.length_pos_iff.2 hhead
    rw [if_pos (congrArg some hc)]
    exact iff_of_true hc.symm (by omega)
  · rw [if_neg fun heq => hc (Option.some.inj heq)]
    exact iff_of_false (Ne.symm hc) (by omega)

/-- The first read ends inside of a character of the line. -/
theorem shownFrom_inside_iff (fresh : Bool) {text₁ text₂ : List Char} {c : Char}
    {head tail : List UInt8} {reads : List (List UInt8)} {chunk : List Char}
    (hchunk : chunk ≠ []) (hnl : '\n' ∉ chunk) (htext : dataField ++ chunk = text₁ ++ c :: text₂)
    (hrest : reads.flatten = tail ++ Utf8.encode text₂) (hcut : head ++ tail = Utf8.encodeChar c)
    (hhead : head ≠ []) (htail : tail ≠ []) :
    shownFrom fresh ((Utf8.encode text₁ ++ head) :: reads) = chunk ↔
      needed chunk ≤ (Utf8.encode text₁ ++ head).length := by
  by_cases htext₂ : text₂ = []
  · obtain ⟨chunk, c', rfl⟩ := (List.eq_nil_or_concat' chunk).resolve_left hchunk
    rw [htext₂, ← List.append_assoc] at htext
    obtain ⟨rfl, hlast⟩ := List.append_inj' htext rfl
    obtain rfl := List.singleton_inj.1 hlast
    rw [htext₂, Utf8.encode_nil, List.append_nil] at hrest
    rw [List.mem_append, not_or] at hnl
    exact shownFrom_inside_last_iff fresh hnl.1 hcut hhead htail hrest
  · have hline := not_mem_line hnl
    rw [htext, List.mem_append, List.mem_cons, not_or, not_or] at hline
    have hdecode := Utf8.decode_cut hcut hhead htail text₁
    have hlength : (Utf8.decode (Utf8.encode text₁ ++ head)).length + text₂.length
        = (dataField ++ chunk).length := by
      rw [hdecode, htext, List.length_append, List.length_append, List.length_singleton,
        List.length_cons]
      omega
    have hnone : '\n' ∉ Utf8.decode (Utf8.encode text₁ ++ head) := by
      rw [hdecode, List.mem_append, List.mem_singleton, not_or]
      exact ⟨hline.1, newline_ne_replacement⟩
    refine iff_of_false (shownFrom_ne_of_rest fresh hchunk hlength (by simp [hdecode]) htext₂
      hnone hline.2.2 (Utf8.isContinuation_of_tail hcut hhead) hrest) ?_
    have hspare := spare_lt hchunk htext₂ (htext.trans (List.append_cons text₁ c text₂))
    have htailpos := List.length_pos_iff.2 htail
    have htotal : (Utf8.encode text₁ ++ head).length + tail.length + (Utf8.encode text₂).length
        = (Utf8.encode (dataField ++ chunk)).length := by
      rw [← List.length_append, List.append_assoc, hcut, ← List.length_append, htext,
        Utf8.encode_append, Utf8.encode_cons, List.append_assoc]
    rw [needed]
    omega

/-- **The first read of a line decides.**  The chunk is shown if and only if all the
bytes it needs are in that read. -/
theorem shownFrom_first_read (fresh : Bool) {value : List UInt8} {reads : List (List UInt8)}
    {chunk : List Char} (hchunk : chunk ≠ []) (hnl : '\n' ∉ chunk) (hvalue : value ≠ [])
    (h : value ++ reads.flatten = Utf8.encode (dataField ++ chunk)) :
    shownFrom fresh (value :: reads) = chunk ↔ needed chunk ≤ value.length := by
  rcases Utf8.encode_eq_append h with ⟨text₁, text₂, htext, rfl, hrest⟩ |
    ⟨text₁, c, text₂, head, tail, htext, rfl, hrest, hcut, hhead, htail⟩
  · have hne : text₁ ≠ [] := by
      rintro rfl
      exact hvalue rfl
    exact shownFrom_between_iff fresh hchunk hnl hne htext hrest
  · exact shownFrom_inside_iff fresh hchunk hnl htext hrest hcut hhead htail

/-- **One line**, in any reads. -/
theorem shownFrom_line (fresh : Bool) {reads : List (List UInt8)} {chunk : List Char}
    (hchunk : chunk ≠ []) (hnl : '\n' ∉ chunk)
    (h : reads.flatten = Utf8.encode (dataField ++ chunk)) :
    shownFrom fresh reads = chunk ↔ ∀ i, IsBoundary reads i → ¬(0 < i ∧ i < needed chunk) := by
  induction reads generalizing fresh with
  | nil =>
      rw [Utf8.encode_append] at h
      have hfield : Utf8.encode dataField ≠ [] := by decide
      exact absurd (List.append_eq_nil_iff.1 h.symm).1 hfield
  | cons value reads ih =>
      rw [List.flatten_cons] at h
      by_cases hvalue : value = []
      · rw [hvalue, List.nil_append] at h
        rw [hvalue, shownFrom, tokens_nil, List.nil_append, ih true h]
        refine forall_congr' fun i => ?_
        rw [isBoundary_cons]
        constructor
        · rintro hwhole (rfl | ⟨j, hj, hboundary⟩)
          · omega
          · rw [List.length_nil, Nat.zero_add] at hj
            exact hwhole (hj ▸ hboundary)
        · exact fun hwhole hboundary => hwhole (.inr ⟨i, (Nat.zero_add i).symm, hboundary⟩)
      · rw [shownFrom_first_read fresh hchunk hnl hvalue h]
        constructor
        · rintro hneeded i hboundary ⟨hpos, hlt⟩
          rcases isBoundary_cons.1 hboundary with rfl | ⟨j, rfl, -⟩
          · omega
          · omega
        · intro hwhole
          refine Nat.le_of_not_lt fun hlt => hwhole value.length ?_
            ⟨List.length_pos_iff.2 hvalue, hlt⟩
          exact isBoundary_cons.2 (.inr ⟨0, rfl, [], reads, rfl, rfl⟩)

/-- No line shows more than its chunk. -/
theorem length_shownFrom_line (fresh : Bool) {reads : List (List UInt8)} {chunk : List Char}
    (hnl : '\n' ∉ chunk) (h : reads.flatten = Utf8.encode (dataField ++ chunk)) :
    (shownFrom fresh reads).length ≤ chunk.length := by
  have hloses : Loses (shownFrom fresh reads) (dataField ++ chunk).length :=
    loses_line fresh (List.forall_mem_nil _) (not_mem_line hnl) h
  rw [List.length_append] at hloses
  exact hloses.length_le

/-! ### The whole stream -/

/-- No line that has something to show is cut by the end of a read before the bytes it
needs are there. -/
def ArriveWhole (chunks : List String) (reads : List (List UInt8)) : Prop :=
  ∀ before chunk after, chunks = before ++ chunk :: after → chunk ≠ "" →
    ∀ i, IsBoundary reads i →
      ¬((written before).length < i ∧ i < (written before).length + needed chunk.toList)

/-- **The first line of a stream** is shown apart from the rest, and the reads of both
end where those of the stream do. -/
theorem exists_line {reads : List (List UInt8)} {chunk : String} {rest : List UInt8}
    (h : reads.flatten = Utf8.encode (frame chunk) ++ rest) :
    ∃ line others, line.flatten = Utf8.encode (dataField ++ chunk.toList) ∧
      others.flatten = rest ∧
      (∀ fresh, shownFrom fresh reads = shownFrom fresh line ++ shownFrom false others) ∧
      (∀ i, i < needed chunk.toList → (IsBoundary reads i ↔ IsBoundary line i)) ∧
      ∀ j, 0 < j →
        (IsBoundary reads ((Utf8.encode (frame chunk)).length + j) ↔ IsBoundary others j) := by
  have hnewlines : Utf8.encode ['\n', '\n'] = [10, 10] := rfl
  rw [frame, Utf8.encode_append, hnewlines, List.append_assoc] at h
  obtain ⟨before, u, v, after, rfl, hline, hafter⟩ := exists_read_of_append_cons h
  have hempty : (v :: after).flatten = [] ++ 10 :: rest := hafter
  obtain ⟨before', u', v', after', hreads, hnone, hrest⟩ := exists_read_of_append_cons hempty
  refine ⟨before ++ [u], v' :: after', ?_, hrest, fun fresh => ?_, fun i hi => ?_, fun j hj => ?_⟩
  · rw [List.flatten_append, List.flatten_singleton, hline]
  · have hnothing : (before' ++ [u']).flatten = [] := by
      rw [List.flatten_append, List.flatten_singleton, hnone]
    rw [shownFrom_newline, hreads, shownFrom_newline,
      shownFrom_of_flatten_eq_nil false hnothing, List.nil_append]
  · refine isBoundary_before (Nat.lt_of_lt_of_le hi ?_)
    rw [hline]
    exact Nat.sub_le _ _
  · have hlength : (Utf8.encode (frame chunk)).length + j
        = (before.flatten ++ u).length + 1 + ((before'.flatten ++ u').length + 1 + j) := by
      rw [hline, hnone, frame, Utf8.encode_append, hnewlines, List.length_append,
        List.length_nil, List.length_cons, List.length_singleton]
      omega
    rw [hlength, isBoundary_after (by omega), hreads, isBoundary_after hj]

theorem written_cons (chunk : String) (chunks : List String) :
    written (chunk :: chunks) = Utf8.encode (frame chunk) ++ written chunks := List.flatMap_cons

/-- A stream arrives whole if its first line does and what is left of it does. -/
theorem arriveWhole_cons {chunk : String} {chunks : List String}
    {reads line others : List (List UInt8)}
    (hline : ∀ i, i < needed chunk.toList → (IsBoundary reads i ↔ IsBoundary line i))
    (hothers : ∀ j, 0 < j →
      (IsBoundary reads ((Utf8.encode (frame chunk)).length + j) ↔ IsBoundary others j)) :
    ArriveWhole (chunk :: chunks) reads ↔
      (chunk ≠ "" → ∀ i, IsBoundary line i → ¬(0 < i ∧ i < needed chunk.toList)) ∧
      ArriveWhole chunks others := by
  constructor
  · intro hwhole
    refine ⟨fun hne i hboundary hbounds => ?_, ?_⟩
    · refine hwhole [] chunk chunks rfl hne i ((hline i hbounds.2).2 hboundary) ?_
      simpa [written] using hbounds
    · rintro before chunk' after rfl hne j hboundary ⟨hlower, hupper⟩
      refine hwhole (chunk :: before) chunk' after rfl hne _
        ((hothers j (Nat.zero_lt_of_lt hlower)).2 hboundary) ?_
      rw [written_cons, List.length_append]
      omega
  · rintro ⟨hfirst, hrest⟩ before chunk' after heq hne i hboundary ⟨hlower, hupper⟩
    cases before with
    | nil =>
        rw [List.nil_append, List.cons.injEq] at heq
        obtain ⟨rfl, -⟩ := heq
        rw [written, List.flatMap_nil, List.length_nil] at hlower hupper
        rw [Nat.zero_add] at hupper
        exact hfirst hne i ((hline i hupper).1 hboundary) ⟨hlower, hupper⟩
    | cons chunk'' before =>
        rw [List.cons_append, List.cons.injEq] at heq
        obtain ⟨rfl, rfl⟩ := heq
        rw [written_cons, List.length_append] at hlower hupper
        obtain ⟨j, rfl⟩ : ∃ j, i = (Utf8.encode (frame chunk)).length + j :=
          ⟨i - (Utf8.encode (frame chunk)).length, by omega⟩
        exact hrest before chunk' after rfl hne j ((hothers j (by omega)).1 hboundary) (by omega)

/-- Texts no longer than others make up the same text only if they are the same. -/
theorem append_eq_append_iff_of_length_le {text₁ text₂ text₁' text₂' : List Char}
    (h₁ : text₁.length ≤ text₁'.length) (h₂ : text₂.length ≤ text₂'.length) :
    text₁ ++ text₂ = text₁' ++ text₂' ↔ text₁ = text₁' ∧ text₂ = text₂' := by
  constructor
  · intro heq
    have hlength := congrArg List.length heq
    rw [List.length_append, List.length_append] at hlength
    exact List.append_inj heq (by omega)
  · rintro ⟨rfl, rfl⟩
    rfl

/-- **Chunks without newline** are all shown if and only if their lines arrive whole. -/
theorem shownFrom_written (fresh : Bool) {chunks : List String} {reads : List (List UInt8)}
    (hnl : ∀ chunk ∈ chunks, '\n' ∉ chunk.toList) (h : reads.flatten = written chunks) :
    (shownFrom fresh reads).length ≤ (chunks.flatMap String.toList).length ∧
    (shownFrom fresh reads = chunks.flatMap String.toList ↔ ArriveWhole chunks reads) := by
  induction chunks generalizing fresh reads with
  | nil =>
      rw [shownFrom_of_flatten_eq_nil fresh h]
      refine ⟨Nat.le_refl _, iff_of_true rfl fun before chunk after heq => ?_⟩
      exact absurd heq.symm (by simp)
  | cons chunk chunks ih =>
      rw [List.forall_mem_cons] at hnl
      rw [written_cons] at h
      obtain ⟨line, others, hline, hothers, hshown, hfirst, hrest⟩ := exists_line h
      obtain ⟨hlengths, hiff⟩ := ih false hnl.2 hothers
      have hlength := length_shownFrom_line fresh hnl.1 hline
      rw [hshown, List.flatMap_cons, List.length_append, List.length_append,
        append_eq_append_iff_of_length_le hlength hlengths, arriveWhole_cons hfirst hrest, hiff]
      refine ⟨Nat.add_le_add hlength hlengths, and_congr_left fun _ => ?_⟩
      by_cases hempty : chunk = ""
      · rw [hempty] at hlength ⊢
        exact iff_of_true (List.length_eq_zero_iff.1 (Nat.le_zero.1 hlength)) fun hne =>
          absurd rfl hne
      · have hne : chunk.toList ≠ [] := by simpa using hempty
        rw [shownFrom_line fresh hne hnl.1 hline]
        exact ⟨fun hwhole _ => hwhole, fun hwhole => hwhole hempty⟩

/-- **What is decoded is what was streamed** if and only if no chunk has a newline and no
line is cut before the bytes it needs are there. -/
theorem decoded_iff {chunks : List String} {reads : List (List UInt8)}
    (h : reads.flatten = written chunks) :
    executeChatStream reads = String.join chunks ↔
      (∀ chunk ∈ chunks, '\n' ∉ chunk.toList) ∧ ArriveWhole chunks reads := by
  have htext : executeChatStream reads = String.join chunks ↔
      shownFrom true reads = chunks.flatMap String.toList := by
    rw [← String.toList_inj, executeChatStream, String.toList_ofList, String.toList_join]
  rw [htext]
  constructor
  · intro hshown
    have hnl : ∀ chunk ∈ chunks, '\n' ∉ chunk.toList := fun chunk hchunk hmem =>
      not_mem_shownFrom true reads (hshown ▸ List.mem_flatMap.2 ⟨chunk, hchunk, hmem⟩)
    exact ⟨hnl, (shownFrom_written true hnl h).2.1 hshown⟩
  · rintro ⟨hnl, hwhole⟩
    exact (shownFrom_written true hnl h).2.2 hwhole

/-- Two chunks of which the second says `data: ` itself, in two reads that part at the
empty line. -/
def partedReads : List (List UInt8) :=
  [Utf8.encode "data: say \n".toList, Utf8.encode "\ndata: data: é\n\n".toList]

theorem parted_reads_decoded :
    executeChatStream partedReads = String.join ["say ", "data: é"] ∧
      ArriveWhole ["say ", "data: é"] partedReads :=
  have hshown : executeChatStream partedReads = String.join ["say ", "data: é"] := by decide
  ⟨hshown, ((decoded_iff (by decide)).1 hshown).2⟩

/-- The second line of a chunk is lost. -/
theorem lines_lost : ¬ ∀ (chunks : List String) (reads : List (List UInt8)),
    reads.flatten = written chunks → executeChatStream reads = String.join chunks := by
  intro h
  have hshown : executeChatStream [written ["one\ntwo"]] = "one" := by decide
  have hjoined := h ["one\ntwo"] [written ["one\ntwo"]] (List.append_nil _)
  exact absurd (hshown.symm.trans hjoined) (by decide)

/-- So is the end of a line that comes in another read. -/
example : [Utf8.encode "data: o".toList, Utf8.encode "ne\n\n".toList].flatten = written ["one"] ∧
    executeChatStream [Utf8.encode "data: o".toList, Utf8.encode "ne\n\n".toList] = "o" := by
  decide

end Web
end CognitiveEngine
