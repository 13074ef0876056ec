/-
# The tokens of the handshake

`sign_jwt` and `verify_jwt` (`app/core/jwt_helper.py`), by which a tool server knows its
client (`app/mcp/server.py`).  A token is a header, a payload and a signature in Base64
without paddings, joined by dots.

The decoder forgives: it skips what is no digit, so that a signature can be written in many
ways.  The header and the payload are signed as they are written, though, and hold no dot,
so that a signature is that of one header and one payload (`verifyJwt_signed`).  The
message authentication is given; it is ideal when no signature is known but those of the
tokens that were signed (`KnowsOnly`).
-/

import CognitiveEngine.Graph.ToolSnapshot
import CognitiveEngine.Machine.Base64
import CognitiveEngine.Machine.Fallible
import CognitiveEngine.Machine.JoinedKey
import CognitiveEngine.Machine.Utf8
import CognitiveEngine.Mcp.JsonText

namespace CognitiveEngine
namespace Mcp

open CognitiveEngine.Graph CognitiveEngine.Machine

/-! ### Base64 -/

/-- `base64url_encode`. -/
def base64urlEncode (data : List UInt8) : List Char := Base64.stripped Base64.urlsafe data

/-- `base64url_decode`. -/
def base64urlDecode (data : List Char) : Option (List UInt8) :=
  Base64.decode Base64.urlsafe (Base64.padded data)

/-- What is encoded is decoded. -/
theorem base64urlDecode_encode (data : List UInt8) :
    base64urlDecode (base64urlEncode data) = some data :=
  Base64.decode_padded_stripped data

/-- An encoded text has no dot. -/
theorem dot_not_mem (data : List UInt8) : '.' ∉ base64urlEncode data := by
  intro hdot
  obtain ⟨-, -, -, -, hdigits⟩ := Base64.exists_stripped (A := Base64.urlsafe) data
  obtain ⟨n, hn, heq⟩ := hdigits _ hdot
  exact Base64.urlsafe_ne (by decide) hn heq.symm

/-! ### Tokens -/

/-- The payload of a token, a dictionary. -/
abbrev Payload : Type := List (String × Json)

/-- `header`. -/
def jwtHeader : Json := .obj [("alg", .str "HS256"), ("typ", .str "JWT")]

variable (F : FloatText) (hmac : List UInt8 → List UInt8 → List UInt8)

/-- `json.dumps(value, separators=(',', ':')).encode('utf-8')`. -/
def jsonBytes (value : Json) : List UInt8 := Utf8.encode (dumps F value)

/-- `unsigned_token`. -/
def unsignedToken (payload : Payload) : List Char :=
  joined '.' (base64urlEncode (jsonBytes F jwtHeader)) (base64urlEncode (jsonBytes F (.obj payload)))

/-- `hmac.new(secret.encode('utf-8'), message.encode('utf-8'), hashlib.sha256).digest()`. -/
def signature (secret : String) (message : List Char) : List UInt8 :=
  hmac (Utf8.encode secret.toList) (Utf8.encode message)

/-- `sign_jwt`. -/
def signJwt (payload : Payload) (secret : String) : String :=
  String.ofList (joined '.' (unsignedToken F payload)
    (base64urlEncode (signature hmac secret (unsignedToken F payload))))

/-- `token.split('.')`. -/
def segments (token : String) : List (List Char) := token.toList.splitOn '.'

/-- The check of `exp` passes: it is missing or false, or a time that is not over.  What is
no number cannot be compared. -/
def notExpired (now : ℚ) (payload : Payload) : Bool :=
  let exp := (payload.lookup "exp").getD .null
  if exp.truthy then (exp.num?.map fun time => decide (now ≤ time)).getD false else true

/-- `verify_jwt`, at a time. -/
def verifyJwt (now : ℚ) (token secret : String) : Option Payload :=
  match segments token with
  | [headerB64, payloadB64, signatureB64] => do
      let actualSig ← base64urlDecode signatureB64
      if signature hmac secret (joined '.' headerB64 payloadB64) = actualSig then
        let bytes ← base64urlDecode payloadB64
        let text ← Utf8.decodeStrict bytes
        match loads F text with
        | some (.obj payload) => if notExpired now payload then some payload else none
        | _ => none
      else none
  | _ => none

/-- **No signature is known but those of the signed tokens:** what a part of the token
decodes to is the signature of a message only if it is that of one of these. -/
def KnowsOnly (secret : String) (signed : Set Payload) (token : String) : Prop :=
  ∀ part ∈ segments token, ∀ message,
    base64urlDecode part = some (hmac (Utf8.encode secret.toList) message) →
    ∃ payload ∈ signed, hmac (Utf8.encode secret.toList) message
      = signature hmac secret (unsignedToken F payload)

variable {F hmac}

/-- The parts of a signed token. -/
theorem segments_signJwt (payload : Payload) (secret : String) :
    segments (signJwt F hmac payload secret) =
      [base64urlEncode (jsonBytes F jwtHeader), base64urlEncode (jsonBytes F (.obj payload)),
        base64urlEncode (signature hmac secret (unsignedToken F payload))] := by
  rw [segments, signJwt, String.toList_ofList, joined, List.splitOn_append_cons_self,
    unsignedToken, splitOn_eq_pair (dot_not_mem _) (dot_not_mem _),
    List.splitOn_eq_singleton (dot_not_mem _)]
  rfl

/-- **When a token is verified:** it has three parts, the last one is the signature of the
others, and the second is an object that has not expired. -/
theorem verifyJwt_eq_some_iff {now : ℚ} {token secret : String} {payload : Payload} :
    verifyJwt F hmac now token secret = some payload ↔
      ∃ headerB64 payloadB64 signatureB64, segments token = [headerB64, payloadB64, signatureB64] ∧
        base64urlDecode signatureB64 = some (signature hmac secret (joined '.' headerB64 payloadB64)) ∧
        (base64urlDecode payloadB64 >>= Utf8.decodeStrict >>= loads F) = some (.obj payload) ∧
        notExpired now payload := by
  have hread : ∀ (payloadB64 : List Char) (bytes : List UInt8) (text : List Char),
      base64urlDecode payloadB64 = some bytes → Utf8.decodeStrict bytes = some text →
      (base64urlDecode payloadB64 >>= Utf8.decodeStrict >>= loads F) = loads F text := by
    intro payloadB64 bytes text hbytes htext
    rw [hbytes, some_bind, htext, some_bind]
  constructor
  · intro h
    unfold verifyJwt at h
    split at h
    · rename_i headerB64 payloadB64 signatureB64 hparts
      obtain ⟨actualSig, hsig, h⟩ := Option.bind_eq_some_iff.1 h
      split at h
      · rename_i heq
        obtain ⟨bytes, hbytes, h⟩ := Option.bind_eq_some_iff.1 h
        obtain ⟨text, htext, h⟩ := Option.bind_eq_some_iff.1 h
        split at h
        · rename_i members hloads
          split at h
          · rename_i hnow
            obtain rfl := Option.some.inj h
            exact ⟨headerB64, payloadB64, signatureB64, hparts, heq ▸ hsig,
              (hread _ _ _ hbytes htext).trans hloads, hnow⟩
          · exact absurd h (by simp)
        · exact absurd h (by simp)
      · exact absurd h (by simp)
    · exact absurd h (by simp)
  · rintro ⟨headerB64, payloadB64, signatureB64, hparts, hsig, hpayload, hnow⟩
    obtain ⟨text, htext, hloads⟩ := Option.bind_eq_some_iff.1 hpayload
    obtain ⟨bytes, hbytes, htext⟩ := Option.bind_eq_some_iff.1 htext
    rw [verifyJwt, hparts]
    dsimp only
    rw [hsig, some_bind, if_pos rfl, hbytes, some_bind, htext, some_bind, hloads]
    exact if_pos hnow

/-- **A payload is verified as it was signed,** until it expires. -/
theorem verifyJwt_signJwt {now : ℚ} {payload : Payload} {secret : String}
    (hvalue : IsValue F (.obj payload)) (hnow : notExpired now payload) :
    verifyJwt F hmac now (signJwt F hmac payload secret) secret = some payload := by
  refine verifyJwt_eq_some_iff.2 ⟨_, _, _, segments_signJwt payload secret,
    base64urlDecode_encode _, ?_, hnow⟩
  rw [base64urlDecode_encode, some_bind, jsonBytes, Utf8.decodeStrict_encode, some_bind,
    loads_dumps hvalue]

/-- **Tokens cannot be altered:** a token that is verified has the header and the payload of
one that was signed, and is read as the payload that was signed. -/
theorem verifyJwt_signed {secret : String} (hinj : Function.Injective (hmac (Utf8.encode secret.toList)))
    {signed : Set Payload} (hsigned : ∀ payload ∈ signed, IsValue F (.obj payload))
    {token : String} (hknown : KnowsOnly F hmac secret signed token) {now : ℚ} {payload : Payload}
    (h : verifyJwt F hmac now token secret = some payload) :
    ∃ p ∈ signed, (segments token).take 2 = (segments (signJwt F hmac p secret)).take 2 ∧
      payload = p := by
  obtain ⟨headerB64, payloadB64, signatureB64, hparts, hsignature, hpayload, -⟩ :=
    verifyJwt_eq_some_iff.1 h
  have hmem : ∀ part ∈ [headerB64, payloadB64, signatureB64], '.' ∉ part :=
    fun part hpart => not_mem_of_mem_splitOn (hparts ▸ hpart)
  simp only [List.forall_mem_cons] at hmem
  obtain ⟨p, hp, heq⟩ := hknown signatureB64 (by simp [hparts]) _ hsignature
  refine ⟨p, hp, ?_⟩
  -- The signature is that of `p`, so the dots part the same texts.
  have htext : joined '.' headerB64 payloadB64 = unsignedToken F p :=
    Utf8.encode_injective (hinj heq)
  have hsplit := congrArg (List.splitOn '.') htext
  rw [splitOn_eq_pair hmem.1 hmem.2.1, unsignedToken,
    splitOn_eq_pair (dot_not_mem _) (dot_not_mem _)] at hsplit
  obtain ⟨hheader, hrest⟩ := List.cons.inj hsplit
  obtain rfl := List.singleton_inj.1 hrest
  rw [hparts, segments_signJwt, hheader]
  refine ⟨rfl, ?_⟩
  rw [base64urlDecode_encode, some_bind, jsonBytes, Utf8.decodeStrict_encode, some_bind,
    loads_dumps (hsigned p hp)] at hpayload
  exact (Json.obj.inj (Option.some.inj hpayload)).symm

/-! ### A client's token -/

/-- The secret that the server falls back to. -/
def defaultSecret : String := "default_mcp_jwt_secret_key_change_me_in_prod"

/-- The float `1767225900.0` as it is written and read. -/
def epochText : FloatText where
  isFloat x := x = 1767225900
  repr _ := "1767225900.0".toList
  float _ := 1767225900
  scanNumber_repr := by
    rintro _ rfl
    exact ⟨⟨"1767225900".toList, ".0".toList, []⟩, by decide, .inl (by decide), rfl⟩

/-- The payload of the client at 1767225600 seconds. -/
def clientPayload : Payload :=
  [("iss", .str "agent-orchestrator"), ("sub", .str "mcp-client"), ("exp", .float 1767225900)]

/-- The HMAC of the payload's token under the secret. -/
def clientDigest : List UInt8 :=
  [170, 244, 50, 196, 86, 0, 66, 94, 132, 75, 43, 250, 109, 128, 123, 105, 174, 243, 199, 213, 6,
    238, 188, 158, 74, 185, 168, 66, 199, 244, 11, 57]

/-- A message authentication that is right on that token, and makes up others. -/
def clientHmac (_ message : List UInt8) : List UInt8 :=
  if message = Utf8.encode (unsignedToken epochText clientPayload) then clientDigest
  else 255 :: message

theorem isValue_clientPayload : IsValue epochText (.obj clientPayload) := by
  refine .obj _ (by decide) ?_
  simp only [clientPayload, List.forall_mem_cons]
  exact ⟨.str _, .str _, .float _ rfl, by simp⟩

theorem clientHmac_injective (key : List UInt8) : Function.Injective (clientHmac key) := by
  intro m m' h
  unfold clientHmac at h
  split at h
  · rename_i hm
    split at h
    · rename_i hm'
      exact hm.trans hm'.symm
    · exact absurd (List.cons.inj h).1 (by decide)
  · split at h
    · exact absurd (List.cons.inj h).1 (by decide)
    · exact (List.cons.inj h).2

/-- What is an object is no signature. -/
theorem clientHmac_ne_jsonBytes (key message : List UInt8) (members : Payload) (hne : members ≠ []) :
    clientHmac key message ≠ jsonBytes epochText (.obj members) := by
  obtain ⟨m, members, rfl⟩ := List.exists_cons_of_ne_nil hne
  unfold clientHmac
  split
  · exact fun h => absurd (List.cons.inj h).1 (by decide)
  · exact fun h => absurd (List.cons.inj h).1 (by decide)

/-- The client's token knows the one signature. -/
theorem knowsOnly_client : KnowsOnly epochText clientHmac defaultSecret {clientPayload}
    (signJwt epochText clientHmac clientPayload defaultSecret) := by
  intro part hpart message hdecode
  rw [segments_signJwt] at hpart
  simp only [List.mem_cons, List.not_mem_nil, or_false] at hpart
  rcases hpart with rfl | rfl | rfl <;> rw [base64urlDecode_encode, Option.some.injEq] at hdecode
  · exact absurd hdecode.symm (clientHmac_ne_jsonBytes _ _ _ (List.cons_ne_nil _ _))
  · exact absurd hdecode.symm (clientHmac_ne_jsonBytes _ _ _ (List.cons_ne_nil _ _))
  · exact ⟨clientPayload, rfl, hdecode.symm⟩

/-- The token as `sign_jwt` writes it. -/
example : signJwt epochText clientHmac clientPayload defaultSecret
    = "eyJhbGciOiJIUzI1NiIsInR5cCI6IkpXVCJ9." ++
      "eyJpc3MiOiJhZ2VudC1vcmNoZXN0cmF0b3IiLCJzdWIiOiJtY3AtY2xpZW50IiwiZXhwIjoxNzY3MjI1OTAwLjB9." ++
      "qvQyxFYAQl6ESyv6bYB7aa7zx9UG7ryeSrmoQsf0Czk" := by decide +kernel

/-- The token is verified before it expires. -/
theorem verifyJwt_client : verifyJwt epochText clientHmac 1767225600
    (signJwt epochText clientHmac clientPayload defaultSecret) defaultSecret = some clientPayload :=
  verifyJwt_signJwt isValue_clientPayload (by decide)

/-- The client's token is read as the payload that it was signed for. -/
theorem client_verified : ∃ p ∈ ({clientPayload} : Set Payload),
    (segments (signJwt epochText clientHmac clientPayload defaultSecret)).take 2
      = (segments (signJwt epochText clientHmac p defaultSecret)).take 2 ∧ clientPayload = p :=
  verifyJwt_signed (clientHmac_injective _)
    (fun _ hp => (Set.mem_singleton_iff.1 hp) ▸ isValue_clientPayload) knowsOnly_client
    verifyJwt_client

end Mcp
end CognitiveEngine
