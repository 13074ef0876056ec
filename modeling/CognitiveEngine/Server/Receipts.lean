/-
# The receipt of a gRPC reply

`StreamChat` ends a reply with a `Receipt`: the hash of the text it has sent, signed
together with the session and the time.  A reply that is produced by the graph is
covered by its receipt on every path.  One that comes from the cache is sent without
a receipt, and `coveredByReceipt_iff` says that this is the only exception.
`dataToSign_binds` says that what is signed for one session, time and text is accepted
for no other.
-/

import CognitiveEngine.Server.StreamEvents

namespace CognitiveEngine
namespace Server

open CognitiveEngine.Graph Machine

variable {C V : Type}

/-! ### Messages of a reply -/

/-- The message a deed sends. -/
def Deed.message? : Deed C → Option ChatResponse
  | .send r => some r
  | _ => none

/-- The messages that are sent, in order. -/
def messagesOf (deeds : List (Deed C)) : List ChatResponse := deeds.filterMap Deed.message?

@[simp] theorem messagesOf_append (deeds deeds' : List (Deed C)) :
    messagesOf (deeds ++ deeds') = messagesOf deeds ++ messagesOf deeds' :=
  List.filterMap_append

@[simp] theorem messagesOf_nil : messagesOf ([] : List (Deed C)) = [] := rfl

@[simp] theorem messagesOf_cons (d : Deed C) (deeds : List (Deed C)) :
    messagesOf (d :: deeds) = d.message?.toList ++ messagesOf deeds := by
  cases h : d.message? <;> simp [messagesOf, h]

/-- The chunks of the messages are those of the deeds. -/
theorem messagesOf_chunks (deeds : List (Deed C)) :
    String.join ((messagesOf deeds).map ChatResponse.chunk)
      = String.join (deeds.map Deed.chunk) := by
  induction deeds with
  | nil => rfl
  | cons d deeds ih =>
      rw [messagesOf_cons, List.map_append, String.join_append, ih, List.map_cons,
        String.join_cons]
      cases d <;> simp [Deed.message?, Deed.chunk]

/-- No message before the end of the loop has a receipt. -/
theorem receipt_of_ofLoop {deeds : List (Deed C)} (h : ∀ d ∈ deeds, d.ofLoop) :
    ∀ r ∈ messagesOf deeds, r.receipt = none := by
  intro r hr
  obtain ⟨d, hd, hmessage⟩ := List.mem_filterMap.1 hr
  cases d with
  | send r' =>
      obtain rfl := Option.some.inj hmessage
      exact h _ hd
  | openCheckpointer | save | publish | cacheSet => exact absurd hmessage nofun

/-- A publication is no message. -/
theorem messagesOf_publication (x : Call) (p : Progress) :
    messagesOf (x.publication p : List (Deed C)) = [] := by
  unfold Call.publication
  split <;> rfl

/-! ### What a receipt covers -/

variable (cache : SemanticCache V) (x : Call) (e : Encounter C V)

/-- A reply is covered by its receipt: exactly the last message has one, of the
call's session, whose hash is that of all the text sent, and whose signature the
public key accepts. -/
def CoveredByReceipt (sent : List ChatResponse) : Prop :=
  ∃ chunks last receipt, sent = chunks ++ [last] ∧ (∀ r ∈ chunks, r.receipt = none) ∧
    last.receipt = some receipt ∧ receipt.sessionId = x.request.sessionId ∧
    receipt.responseHash = cache.sha256 (String.join (sent.map ChatResponse.chunk)) ∧
    e.keys.verifyDataEs256
      (dataToSign receipt.sessionId receipt.timestamp receipt.responseHash)
      receipt.signature = true

/-- A single message without a receipt is not covered. -/
theorem not_coveredByReceipt_singleton (chunk : String) :
    ¬ CoveredByReceipt cache x e [⟨chunk, none⟩] := by
  rintro ⟨chunks, last, receipt, hsent, -, hreceipt, -⟩
  have hlast := congrArg List.getLast? hsent
  rw [List.getLast?_singleton, List.getLast?_append, List.getLast?_singleton, Option.some_or,
    Option.some.injEq] at hlast
  rw [← hlast] at hreceipt
  exact absurd hreceipt nofun

/-- **The receipt of a text** names its hash, and its signature is accepted. -/
theorem receiptOf_spec (hkeys : e.keys.Matching) {text : String} {receipt : Receipt}
    (h : receiptOf cache x e text = some receipt) :
    receipt.sessionId = x.request.sessionId ∧ receipt.responseHash = cache.sha256 text ∧
      e.keys.verifyDataEs256 (dataToSign receipt.sessionId receipt.timestamp receipt.responseHash)
        receipt.signature = true := by
  obtain ⟨signature, hsignature, rfl⟩ := Option.map_eq_some_iff.1 h
  exact ⟨rfl, rfl, (Es256.verifyDataEs256_signDataEs256 hkeys hsignature).2 rfl⟩

/-- **The end of a call that has text and does not fail** sends one message, the
receipt of the text. -/
theorem messagesOf_finishStreamChat {p : Progress} (htext : p.text ≠ "")
    (hok : (finishStreamChat (C := C) cache x e p).2 = false) :
    ∃ receipt, receiptOf cache x e p.text = some receipt ∧
      messagesOf (finishStreamChat (C := C) cache x e p).1 = [⟨"", some receipt⟩] := by
  unfold finishStreamChat at hok ⊢
  rw [if_neg htext] at hok ⊢
  by_cases htakes : e.cacheTakes
  · simp only [htakes, Bool.not_true, Bool.false_eq_true, if_false] at hok ⊢
    cases hr : receiptOf cache x e p.text with
    | none => rw [hr] at hok; exact absurd hok nofun
    | some receipt =>
        refine ⟨receipt, rfl, ?_⟩
        simp [messagesOf_publication, Deed.message?]
  · simp [htakes] at hok

/-- **When the receipt covers the reply:** of the calls of `StreamChat` that end without
error and send some text, exactly for those that are not answered from the cache. -/
theorem coveredByReceipt_iff (hx : x.endpoint = .streamChat) (hkeys : e.keys.Matching)
    (hok : (serve cache x e).2 = false)
    (hsent : ∃ r ∈ messagesOf (serve cache x e).1, r.chunk ≠ "") :
    CoveredByReceipt cache x e (messagesOf (serve cache x e).1) ↔
      cache.get (e.stores.collections "semantic_cache") x.request.prompt = some none := by
  have hfinish (p : Progress) : finish cache x e p = finishStreamChat cache x e p := by
    rw [finish, hx]
  rcases serve_cases cache x e with ⟨hcompletes, heq⟩ | ⟨cachedReply, hget, heq⟩ | ⟨-, hfails, -⟩
  · refine iff_of_true ?_ hcompletes.missed
    rw [heq, hfinish] at hok hsent ⊢
    have htext : (progress x e).text ≠ "" := by
      -- Without text no chunk has been sent.
      intro hnone
      obtain ⟨r, hr, hchunk⟩ := hsent
      rw [messagesOf_append, finishStreamChat, if_pos hnone, messagesOf_publication,
        List.append_nil] at hr
      rw [← loopDeeds_chunks, ← messagesOf_chunks, join_map_eq_empty_iff] at hnone
      exact hchunk (hnone r hr)
    obtain ⟨receipt, hreceipt, hmessages⟩ := messagesOf_finishStreamChat cache x e htext hok
    obtain ⟨hsession, hhash, hverify⟩ := receiptOf_spec cache x e hkeys hreceipt
    refine ⟨messagesOf (loopDeeds x e), ⟨"", some receipt⟩, receipt, ?_,
      receipt_of_ofLoop (loopDeeds_ofLoop x e), rfl, hsession, ?_, hverify⟩
    · rw [messagesOf_append, hmessages]
    · rw [messagesOf_append, hmessages, List.map_append, String.join_append, messagesOf_chunks,
        loopDeeds_chunks, hhash]
      simp
  · refine iff_of_false ?_ (by simp [hget])
    rw [heq]
    exact not_coveredByReceipt_singleton cache x e cachedReply
  · exact absurd hok (by simp [hfails])

/-! ### What a receipt binds -/

/-- A timestamp is written without a colon. -/
theorem colon_notMem_repr (timestamp : ℕ) : ':' ∉ (Nat.repr timestamp).toList := by
  rw [Nat.toList_repr]
  intro hcolon
  exact absurd (Nat.isDigit_of_mem_toDigits (by decide) (by decide) hcolon) (by decide)

/-- **A receipt binds one session, time and text.**  The session id may have colons and
digits in it: the hash is of one length, and the timestamp is what stands before it up
to a colon, both read from the right. -/
theorem dataToSign_binds {sessionId sessionId' : String} {timestamp timestamp' : ℕ}
    {responseHash responseHash' : String} (hhash : responseHash.toList.length = 64)
    (hhash' : responseHash'.toList.length = 64) :
    (dataToSign sessionId timestamp responseHash = dataToSign sessionId' timestamp' responseHash' →
      sessionId = sessionId' ∧ timestamp = timestamp' ∧ responseHash = responseHash') ∧
    ∀ keys : Es256, keys.Exact → ∀ signature,
      keys.verifyDataEs256 (dataToSign sessionId timestamp responseHash) signature = true →
      keys.verifyDataEs256 (dataToSign sessionId' timestamp' responseHash') signature = true →
      sessionId = sessionId' ∧ timestamp = timestamp' ∧ responseHash = responseHash' := by
  have hinjective : dataToSign sessionId timestamp responseHash
        = dataToSign sessionId' timestamp' responseHash' →
      sessionId = sessionId' ∧ timestamp = timestamp' ∧ responseHash = responseHash' := by
    intro h
    obtain ⟨hfront, hend⟩ := text_joined_inj_right h (hhash.trans hhash'.symm)
    obtain ⟨hsession, htime⟩ := text_joined_inj_of_notMem (by decide)
      (colon_notMem_repr timestamp) (colon_notMem_repr timestamp') hfront
    have hdigits : Nat.toDigits 10 timestamp = Nat.toDigits 10 timestamp' := by
      rw [← Nat.toList_repr, htime, Nat.toList_repr]
    refine ⟨hsession, ?_, hend⟩
    rw [← Nat.ofDigitChars_ten_toDigits (n := timestamp), hdigits, Nat.ofDigitChars_ten_toDigits]
  exact ⟨hinjective, fun keys hkeys signature h h' => hinjective (hkeys.verifyDataEs256 h h')⟩

/-- The hash of some text, written as 64 digits. -/
def zeroHash : String := String.ofList (List.replicate 64 '0')

theorem length_zeroHash : zeroHash.toList.length = 64 := by
  have hdigits : zeroHash.toList = List.replicate 64 '0' := String.toList_ofList
  exact (congrArg List.length hdigits).trans List.length_replicate

/-- A colon moved from the session id to the timestamp does not carry the signature over. -/
theorem moved_colon_rejected : ∃ signature,
    utf8Keys.signDataEs256 (dataToSign "talk:1" 700 zeroHash) = some signature ∧
      utf8Keys.verifyDataEs256 (dataToSign "talk" 1700 zeroHash) signature = false := by
  have hsigned := utf8Keys_sign (dataToSign "talk:1" 700 zeroHash)
  have haccepted := (Es256.verifyDataEs256_signDataEs256 utf8Keys_matching hsigned).2 rfl
  refine ⟨_, hsigned, Bool.eq_false_iff.2 fun h => ?_⟩
  have hsame := (dataToSign_binds length_zeroHash length_zeroHash).2 utf8Keys utf8Keys_exact _
    haccepted h
  exact absurd hsame.1 (by decide)

/-- The reply to a prompt that is not in the cache is covered. -/
theorem answer_covered :
    CoveredByReceipt plainCache (tidesCall .streamChat "alice")
      (smoothEncounter [("final_synthesizer", "The moon.")] [])
      (messagesOf (serve plainCache (tidesCall .streamChat "alice")
        (smoothEncounter [("final_synthesizer", "The moon.")] [])).1) :=
  (coveredByReceipt_iff plainCache _ _ rfl utf8Keys_matching rfl ⟨_, .head _, by decide⟩).2 rfl

/-- The reply to a prompt that is in the cache has no receipt. -/
theorem cached_reply_uncovered : ¬ ∀ e : Encounter Unit Unit, e.keys.Matching →
    (serve plainCache (tidesCall .streamChat "alice") e).2 = false →
    (∃ r ∈ messagesOf (serve plainCache (tidesCall .streamChat "alice") e).1, r.chunk ≠ "") →
    CoveredByReceipt plainCache (tidesCall .streamChat "alice") e
      (messagesOf (serve plainCache (tidesCall .streamChat "alice") e).1) := by
  intro h
  let e : Encounter Unit Unit :=
    smoothEncounter [] [plainCache.entry "What makes the tides?" "The moon."]
  have hmessages : messagesOf (serve plainCache (tidesCall .streamChat "alice") e).1
      = [⟨"The moon.", none⟩] := rfl
  have hcovered := h e utf8Keys_matching rfl
    ⟨⟨"The moon.", none⟩, by rw [hmessages]; exact List.mem_singleton_self _, by decide⟩
  rw [hmessages] at hcovered
  exact not_coveredByReceipt_singleton _ _ _ _ hcovered

end Server
end CognitiveEngine
