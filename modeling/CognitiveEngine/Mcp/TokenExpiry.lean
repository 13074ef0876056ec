/-
# When a token is over

`verify_jwt` looks at the `exp` of a payload with `if exp and time.time() > exp`.  A
payload without the key is good for ever, and one with a time is good until then; but
the time `0` is falsy, so a token with it is good for ever as well.

`roundTrip_iff` says that this is all that stands between a signed token and what is
read of it: the encodings undo each other for every payload and every length, and the
token expires as its payload says, exactly unless `exp` is a zero that is over.
-/

import CognitiveEngine.Mcp.Handshake

namespace CognitiveEngine
namespace Mcp

open CognitiveEngine.Graph CognitiveEngine.Machine

/-- The number of a JSON number. -/
def number? : Json → Option ℚ
  | .int n => some n
  | .float x => some x
  | _ => none

variable {F : FloatText} {hmac : List UInt8 → List UInt8 → List UInt8}

/-- A signed token is verified as its payload until the numeric `exp` of that, and not
after. -/
structure RoundTrip (F : FloatText) (hmac : List UInt8 → List UInt8 → List UInt8) (now : ℚ)
    (payload : Payload) (secret : String) : Prop where
  endless : payload.lookup "exp" = none →
    verifyJwt F hmac now (signJwt F hmac payload secret) secret = some payload
  good : ∀ exp time, payload.lookup "exp" = some exp → number? exp = some time → now ≤ time →
    verifyJwt F hmac now (signJwt F hmac payload secret) secret = some payload
  expired : ∀ exp time, payload.lookup "exp" = some exp → number? exp = some time → time < now →
    verifyJwt F hmac now (signJwt F hmac payload secret) secret = none

/-- **Only the expiry comes between a signed token and its payload.** -/
theorem verifyJwt_signJwt_eq (now : ℚ) {payload : Payload} (hvalue : IsValue F (.obj payload))
    (secret : String) :
    verifyJwt F hmac now (signJwt F hmac payload secret) secret =
      if notExpired now payload then some payload else none := by
  by_cases hnow : notExpired now payload
  · rw [if_pos hnow, verifyJwt_signJwt hvalue hnow]
  · rw [if_neg hnow, Option.eq_none_iff_forall_ne_some]
    intro p hp
    obtain ⟨_, payloadB64, _, hparts, -, hpayload, hok⟩ := verifyJwt_eq_some_iff.1 hp
    rw [segments_signJwt] at hparts
    obtain ⟨-, rfl, -⟩ : _ ∧ _ ∧ _ := by simpa using hparts
    rw [base64urlDecode_encode, some_bind, jsonBytes, Utf8.decodeStrict_encode, some_bind,
      loads_dumps hvalue, Option.some_inj, Json.obj.injEq] at hpayload
    exact hnow (hpayload ▸ hok)

/-- A number is compared as what it is, and is true unless it is zero. -/
theorem truthy_of_number? {exp : Json} {time : ℚ} (h : number? exp = some time) :
    exp.num? = some time ∧ (exp.truthy ↔ time ≠ 0) := by
  cases exp with
  | int n =>
      obtain rfl := Option.some.inj h
      exact ⟨rfl, by simp [Json.truthy]⟩
  | float x =>
      obtain rfl := Option.some.inj h
      exact ⟨rfl, by simp [Json.truthy]⟩
  | null | bool | str | arr | obj => cases h

/-- The check of a numeric `exp`: it is not over, or zero. -/
theorem notExpired_iff {now time : ℚ} {payload : Payload} {exp : Json}
    (hexp : payload.lookup "exp" = some exp) (htime : number? exp = some time) :
    notExpired now payload ↔ now ≤ time ∨ time = 0 := by
  obtain ⟨hnum, htruthy⟩ := truthy_of_number? htime
  rw [notExpired, hexp, Option.getD_some]
  by_cases h : exp.truthy
  · have hne := htruthy.1 h
    simp [h, hnum, hne]
  · have hzero : time = 0 := not_not.1 (mt htruthy.2 h)
    simp [h, hzero]

/-- **A token expires as its payload says, exactly unless its `exp` is a zero that is
over.**  For every payload, secret and clock. -/
theorem roundTrip_iff {now : ℚ} {payload : Payload} (hvalue : IsValue F (.obj payload))
    (secret : String) :
    RoundTrip F hmac now payload secret ↔
      ¬ ((payload.lookup "exp").bind number? = some 0 ∧ 0 < now) := by
  have heq : verifyJwt F hmac now (signJwt F hmac payload secret) secret =
      if notExpired now payload then some payload else none :=
    verifyJwt_signJwt_eq now hvalue secret
  constructor
  · rintro h ⟨hzero, hnow⟩
    obtain ⟨exp, hexp, htime⟩ := Option.bind_eq_some_iff.1 hzero
    have hover := h.expired exp 0 hexp htime hnow
    rw [heq, if_pos ((notExpired_iff hexp htime).2 (.inr rfl))] at hover
    cases hover
  · intro hcond
    refine ⟨fun hnone => ?_, fun exp time hexp htime hle => ?_, fun exp time hexp htime hlt => ?_⟩
    · have hpass : notExpired now payload := by
        rw [notExpired, hnone]
        rfl
      rw [heq, if_pos hpass]
    · rw [heq, if_pos ((notExpired_iff hexp htime).2 (.inl hle))]
    · have hfail : ¬ notExpired now payload := by
        rw [notExpired_iff hexp htime]
        rintro (hle | rfl)
        · exact absurd hlt (not_lt.2 hle)
        · exact hcond ⟨by rw [hexp]; exact htime, hlt⟩
      rw [heq, if_neg hfail]

/-- The client's token, before it is over. -/
theorem roundTrip_client : RoundTrip epochText clientHmac 1767225600 clientPayload defaultSecret :=
  (roundTrip_iff isValue_clientPayload defaultSecret).2 (by decide +kernel)

/-- **A token that was over at the start of the epoch is verified ever since.** -/
theorem not_roundTrip_epoch :
    ¬ ∀ F hmac now payload secret, IsValue F (.obj payload) →
      RoundTrip F hmac now payload secret := by
  intro hall
  have hvalue : IsValue epochText (.obj [("exp", .int 0)]) := by
    refine .obj _ (by decide) ?_
    simp only [List.forall_mem_cons]
    exact ⟨.int 0, by simp⟩
  have hverified : verifyJwt epochText clientHmac 1
      (signJwt epochText clientHmac [("exp", .int 0)] defaultSecret) defaultSecret
        = some [("exp", .int 0)] :=
    verifyJwt_signJwt hvalue (by decide)
  have hover := (hall epochText clientHmac 1 _ defaultSecret hvalue).expired (.int 0) 0 rfl rfl
    (by decide)
  rw [hverified] at hover
  cases hover

end Mcp
end CognitiveEngine
