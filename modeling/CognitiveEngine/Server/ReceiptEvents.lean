/-
# The receipt at the end of an event stream

`event_generator` (`app/api/routes/chat.py`) yields every chunk of the reply as
`data: {content}` and an empty line, and at the end the receipt, as JSON.  The receipt has
the hash of the reply, so that a client can check what it has received.

The contents are put into the frame as they are.  A line end in one of them ends the line
of the frame, and what comes after it is another field or none: some of the text is lost
or changed, and the hash is another.  `verifiable_iff` says that the client finds the hash
of what it has received exactly when no content has a line end.

The client reads by the rules of server-sent events (`EventStream`).
-/

import CognitiveEngine.Graph.ToolFingerprints
import CognitiveEngine.Machine.EventStream
import CognitiveEngine.Server.Receipts

namespace CognitiveEngine
namespace Server

open CognitiveEngine.Graph CognitiveEngine.Machine CognitiveEngine.Mcp

variable {C V : Type} (F : FloatText) (cache : SemanticCache V) (x : Call) (e : Encounter C V)

/-! ### What is yielded -/

/-- `receipt_json`. -/
def receiptJson (receipt : Receipt) : List (String × Json) :=
  [("type", .str "receipt"), ("session_id", .str receipt.sessionId),
    ("timestamp", .int receipt.timestamp), ("response_hash", .str receipt.responseHash),
    ("signature", .str receipt.signature), ("key_id", .str receipt.keyId)]

/-- What `event_generator` yields for a message of the reply. -/
def Call.yields (r : ChatResponse) : String :=
  match r.receipt with
  | none => x.frame r.chunk
  | some receipt => x.frame (String.ofList (dumpsRecord F (receiptJson receipt)))

/-- The bytes of a reply; `StreamingResponse` encodes what is yielded. -/
def Call.body (sent : List ChatResponse) : List UInt8 :=
  sent.flatMap fun r => Utf8.encode (x.yields F r).toList

/-- The contents that the loop passes on. -/
def contents (events : List (GraphEvent C)) : List String :=
  (events.map GraphEvent.passed).filter (· ≠ "")

/-- **A stream is verifiable:** its last event is JSON with the hash of the data of the
others, put together. -/
def Verifiable (bytes : List UInt8) : Prop :=
  ∃ events last members, EventStream.parse bytes = events ++ [last] ∧
    loads F last.data = some (.obj members) ∧
    members.lookup "response_hash"
      = some (.str (cache.sha256 (String.ofList (EventStream.dataOf events))))

/-! ### The messages of a reply -/

theorem messagesOf_hear (thread : Option String) (p : Progress) (event : GraphEvent C) :
    messagesOf (p.hear thread event).1 = (contents [event]).map fun content => ⟨content, none⟩ := by
  cases event with
  | chatModelStream node content =>
      by_cases hnode : node = "supervisor_router" <;> by_cases hcontent : content = "" <;>
        simp [Progress.hear, contents, GraphEvent.passed, Deed.message?, hnode, hcontent]
  | chainEnd name output =>
      by_cases hname : name = "compiled_graph" <;>
        simp [Progress.hear, contents, GraphEvent.passed, hname]
  | other => rfl
  | checkpoint c =>
      cases thread <;> simp [Progress.hear, contents, GraphEvent.passed, Deed.message?]

/-- **The loop sends the contents,** each in a message of its own. -/
theorem messagesOf_hearAll (thread : Option String) (p : Progress) (events : List (GraphEvent C)) :
    messagesOf (p.hearAll thread events).1
      = (contents events).map fun content => ⟨content, none⟩ := by
  induction events generalizing p with
  | nil => rfl
  | cons event events ih =>
      have hcons : contents (event :: events) = contents [event] ++ contents events := by
        rw [contents, List.map_cons, ← List.singleton_append, List.filter_append]
        rfl
      rw [Progress.hearAll, messagesOf_append, messagesOf_hear, ih, hcons, List.map_append]

/-- The text of the reply is that of the contents. -/
theorem join_contents : String.join (contents (heard x e)) = (progress x e).text := by
  rw [contents, join_filter_ne_empty, progress_text]

variable {cache x e}

/-- **The messages of a call that completes:** the contents and the receipt. -/
theorem messagesOf_serve (hx : x.endpoint = .chatStream) (hcompletes : Completes cache x e)
    (htext : (progress x e).text ≠ "") {receipt : Receipt}
    (hreceipt : receiptOf cache x e (progress x e).text = some receipt) :
    messagesOf (serve cache x e).1
      = (contents (heard x e)).map (fun content => ⟨content, none⟩) ++ [⟨"", some receipt⟩] := by
  have hopening : messagesOf (x.threadId?.toList.map (Deed.openCheckpointer (C := C))) = [] := by
    cases x.threadId? <;> rfl
  have hfinish : messagesOf (finish (C := C) cache x e (progress x e)).1
      = [⟨"", some receipt⟩] := by
    rw [finish, hx]
    dsimp only
    rw [finishChatStream, if_neg htext, hreceipt]
    by_cases htakes : e.cacheTakes <;> simp [htakes, messagesOf_publication, Deed.message?]
  rcases serve_cases cache x e with ⟨-, heq⟩ | ⟨cachedReply, hget, -⟩ | ⟨hnot, -⟩
  · rw [heq, messagesOf_append, loopDeeds, messagesOf_append, hopening, messagesOf_hearAll,
      hfinish, List.nil_append]
  · have hsome := Option.some.inj (hget.symm.trans hcompletes.missed)
    exact absurd hsome (Option.some_ne_none cachedReply)
  · exact absurd hcompletes hnot

/-! ### The bytes of a reply -/

/-- Each message is one frame. -/
theorem toList_frame (hx : x.endpoint = .chatStream) (content : String) :
    (x.frame content).toList = EventStream.frame content.toList := by
  rw [Call.frame, hx]
  dsimp only
  rw [String.toList_append, String.toList_append]
  rfl

/-- The text of a reply, encoded. -/
theorem body_eq (hx : x.endpoint = .chatStream) (chunks : List String) (receipt : Receipt) :
    x.body F (chunks.map (fun content => ⟨content, none⟩) ++ [⟨"", some receipt⟩])
      = Utf8.encode ((chunks.map String.toList).flatMap EventStream.frame ++
          EventStream.frame (dumpsRecord F (receiptJson receipt))) := by
  have hlast : (x.yields F ⟨"", some receipt⟩).toList
      = EventStream.frame (dumpsRecord F (receiptJson receipt)) := by
    rw [Call.yields]
    dsimp only
    rw [toList_frame hx, String.toList_ofList]
  rw [Call.body, List.flatMap_append, List.flatMap_singleton, hlast, Utf8.encode_append]
  congr 1
  induction chunks with
  | nil => rfl
  | cons chunk chunks ih =>
      rw [List.map_cons, List.flatMap_cons, ih, List.map_cons, List.flatMap_cons,
        Utf8.encode_append, Call.yields]
      dsimp only
      rw [toList_frame hx]

/-- The receipt is written in one line. -/
theorem plain_receipt (receipt : Receipt) :
    EventStream.Plain (dumpsRecord F (receiptJson receipt)) := by
  have hprinted : ∀ m ∈ receiptJson receipt, ∀ c ∈ dumps F m.2, JsonText.IsPrinted c := by
    simp only [receiptJson, List.forall_mem_cons, dumps]
    refine ⟨?_, ?_, ?_, ?_, ?_, ?_, fun m hm => absurd hm List.not_mem_nil⟩
    case refine_3 => exact JsonText.isPrinted_intText _
    all_goals exact JsonText.isPrinted_quoted _
  intro c hc
  have hc' : 0x20 ≤ c.toNat := isPrinted_dumpsRecord hprinted c hc
  have hends : ∀ d : Char, EventStream.isLineEnd d → d.toNat < 0x20 := by
    intro d hd
    rw [EventStream.isLineEnd, Bool.or_eq_true, decide_eq_true_iff, decide_eq_true_iff] at hd
    rcases hd with rfl | rfl <;> decide
  by_contra hnot
  exact absurd hc' (Nat.not_le.2 (hends c (Bool.not_eq_false _ ▸ hnot)))

/-- The receipt is read as it was written. -/
theorem loads_receipt (receipt : Receipt) :
    loads F (dumpsRecord F (receiptJson receipt)) = some (.obj (receiptJson receipt)) := by
  refine loads_dumpsRecord (by simp [receiptJson]) ?_
  simp only [receiptJson, List.forall_mem_cons]
  exact ⟨.str _, .str _, .int _, .str _, .str _, .str _, fun m hm => absurd hm List.not_mem_nil⟩

/-! ### The hash of what is received -/

/-- **What a client finds in the body of a reply:** the hash of the reply, and data that
are the reply exactly when no content has a line end. -/
theorem verifiable_body (hx : x.endpoint = .chatStream) (chunks : List String) {receipt : Receipt}
    (hhash : receipt.responseHash = cache.sha256 (String.join chunks)) :
    ∃ data : List Char,
      (Verifiable F cache
          (x.body F (chunks.map (fun content => ⟨content, none⟩) ++ [⟨"", some receipt⟩])) ↔
        cache.sha256 (String.ofList data) = cache.sha256 (String.join chunks)) ∧
      (String.ofList data = String.join chunks ↔
        ∀ content ∈ chunks, EventStream.Plain content.toList) := by
  obtain ⟨events, last, hparse, hlast, hlength, hplain⟩ :=
    EventStream.parse_frames (chunks.map String.toList) (plain_receipt F receipt)
  have hloads : loads F last.data = some (.obj (receiptJson receipt)) := by
    rw [hlast, loads_receipt]
  have hlookup : (receiptJson receipt).lookup "response_hash" = some (.str receipt.responseHash) :=
    rfl
  have hjoin : (String.join chunks).toList = (chunks.map String.toList).flatten := by
    rw [String.toList_join, List.flatten_eq_flatMap, List.flatMap_map]
    rfl
  refine ⟨EventStream.dataOf events, ?_, ?_⟩
  · rw [body_eq F hx, Verifiable, hparse]
    constructor
    · rintro ⟨events', last', members, heq, hmembers, hfound⟩
      obtain ⟨rfl, hlast'⟩ := List.append_inj' heq rfl
      rw [← (List.cons.inj hlast').1, hloads] at hmembers
      obtain rfl := Json.obj.inj (Option.some.inj hmembers)
      rw [hlookup, hhash] at hfound
      exact (Json.str.inj (Option.some.inj hfound)).symm
    · intro hequal
      exact ⟨events, last, receiptJson receipt, rfl, hloads, by rw [hlookup, hhash, hequal]⟩
  · rw [← String.toList_inj, String.toList_ofList, hjoin, EventStream.data_eq_iff hlength hplain,
      List.forall_mem_map]

variable (cache x e)

/-- A call of `chat_stream_endpoint` that runs to its end, passes on some text and signs
its receipt. -/
structure Receipted : Prop where
  endpoint : x.endpoint = .chatStream
  completes : Completes cache x e
  contents_ne_nil : contents (heard x e) ≠ []
  signs : (receiptOf cache x e (progress x e).text).isSome

variable {cache x e}

/-- What a client finds in the body of such a call. -/
theorem Receipted.verifiable_body (h : Receipted cache x e) :
    ∃ data : List Char,
      (Verifiable F cache (x.body F (messagesOf (serve cache x e).1)) ↔
        cache.sha256 (String.ofList data) = cache.sha256 (progress x e).text) ∧
      (String.ofList data = (progress x e).text ↔
        ∀ content ∈ contents (heard x e), EventStream.Plain content.toList) := by
  obtain ⟨receipt, hreceipt⟩ := Option.isSome_iff_exists.1 h.signs
  have htext : (progress x e).text ≠ "" := by
    intro hnone
    rw [progress_text, join_map_eq_empty_iff] at hnone
    refine h.contents_ne_nil (List.filter_eq_nil_iff.2 fun content hcontent => ?_)
    obtain ⟨event, hevent, rfl⟩ := List.mem_map.1 hcontent
    simpa using hnone event hevent
  have hhash : receipt.responseHash = cache.sha256 (String.join (contents (heard x e))) := by
    obtain ⟨signature, -, rfl⟩ := Option.map_eq_some_iff.1 hreceipt
    rw [join_contents]
  rw [messagesOf_serve h.endpoint h.completes htext hreceipt, ← join_contents]
  exact Server.verifiable_body F h.endpoint _ hhash

/-- Contents with a line end are not received as they were. -/
theorem Receipted.not_verifiable (h : Receipted cache x e) (hsha : Function.Injective cache.sha256)
    (hends : ¬ ∀ content ∈ contents (heard x e), EventStream.Plain content.toList) :
    ¬ Verifiable F cache (x.body F (messagesOf (serve cache x e).1)) := by
  obtain ⟨data, hfound, hplain⟩ := h.verifiable_body F
  exact fun hverifiable => hends (hplain.1 (hsha (hfound.1 hverifiable)))

/-- **When a stream is verifiable:** exactly when no content has a carriage return or a
newline. -/
theorem Receipted.verifiable_iff (h : Receipted cache x e)
    (hsha : Function.Injective cache.sha256) :
    Verifiable F cache (x.body F (messagesOf (serve cache x e).1)) ↔
      ∀ content ∈ contents (heard x e), EventStream.Plain content.toList := by
  refine ⟨fun hverifiable => ?_, fun hall => ?_⟩
  · by_contra hends
    exact h.not_verifiable F hsha hends hverifiable
  · obtain ⟨data, hfound, hplain⟩ := h.verifiable_body F
    rw [hfound, hplain.2 hall]

/-! ### An answer in one line and in two -/

/-- The meeting of a call with models that say some chunks. -/
def chunksEncounter (chunks : List String) : Encounter Unit Unit :=
  smoothEncounter (chunks.map fun chunk => ("final_synthesizer", chunk)) []

/-- Any chunks that are not empty are the contents of a call. -/
theorem contents_chunksEncounter {chunks : List String} (h : ∀ chunk ∈ chunks, chunk ≠ "") :
    contents (heard (tidesCall .chatStream "alice") (chunksEncounter chunks)) = chunks := by
  simpa [contents, heard, tidesCall, chunksEncounter, smoothEncounter, GraphEvent.passed,
    Function.comp_def] using h

/-- Such a call has a receipt. -/
theorem receipted_chunksEncounter {chunks : List String} (hne : chunks ≠ [])
    (h : ∀ chunk ∈ chunks, chunk ≠ "") :
    Receipted plainCache (tidesCall .chatStream "alice") (chunksEncounter chunks) where
  endpoint := rfl
  completes := ⟨rfl, rfl, fun _ => rfl, rfl⟩
  contents_ne_nil := by rwa [contents_chunksEncounter h]
  signs := rfl

/-- An answer in one line is verifiable. -/
theorem moon_verifiable :
    Verifiable noFloats plainCache ((tidesCall .chatStream "alice").body noFloats
      (messagesOf (serve plainCache (tidesCall .chatStream "alice")
        (chunksEncounter ["The ", "moon."])).1)) := by
  have hchunks : ∀ chunk ∈ ["The ", "moon."], chunk ≠ "" := by decide
  have hcall := receipted_chunksEncounter (List.cons_ne_nil _ _) hchunks
  refine (hcall.verifiable_iff noFloats listedSha256.value_injective).2 ?_
  rw [contents_chunksEncounter hchunks]
  decide

/-- One in two lines is not. -/
theorem not_verifiable_two_lines :
    ¬ ∀ e : Encounter Unit Unit, Receipted plainCache (tidesCall .chatStream "alice") e →
      Verifiable noFloats plainCache ((tidesCall .chatStream "alice").body noFloats
        (messagesOf (serve plainCache (tidesCall .chatStream "alice") e).1)) := by
  intro h
  have hchunks : ∀ chunk ∈ ["The\nmoon."], chunk ≠ "" := by decide
  have hcall := receipted_chunksEncounter (List.cons_ne_nil _ _) hchunks
  refine hcall.not_verifiable noFloats listedSha256.value_injective ?_ (h _ hcall)
  rw [contents_chunksEncounter hchunks]
  decide

end Server
end CognitiveEngine
