/-
# Signatures

`sign_data_es256` and `verify_data_es256` (`app/core/asymmetric_helper.py`), over the
elliptic curve keys of the `cryptography` package.  What the signature of a text is,
and which signatures the public key accepts, is left open; `Es256.Matching` is what
is relied on of a pair of keys.
-/

import CognitiveEngine.Machine.Base64

namespace CognitiveEngine
namespace Server

open CognitiveEngine.Machine

/-- The private and the public key of the settings. -/
structure Es256 where
  /-- The text of the private key is that of an elliptic curve key. -/
  privateKeyLoads : Bool
  publicKeyLoads : Bool
  /-- `private_key.sign(data, ec.ECDSA(hashes.SHA256()))` of the encoded text. -/
  sign : String → List UInt8
  /-- `public_key.verify` does not raise. -/
  verify : List UInt8 → String → Bool

namespace Es256

variable (keys : Es256)

/-- `sign_data_es256`; `none` when it raises. -/
def signDataEs256 (data : String) : Option String :=
  if keys.privateKeyLoads then
    some (String.ofList (Base64.encode Base64.standard (keys.sign data)))
  else none

/-- `verify_data_es256`. -/
def verifyDataEs256 (data signatureB64 : String) : Bool :=
  keys.publicKeyLoads &&
    match Base64.decode Base64.standard signatureB64.toList with
    | none => false
    | some signature => keys.verify signature data

/-- The public key is that of the private key: it accepts a signature for the text
that was signed, and for no other. -/
structure Matching : Prop where
  publicKeyLoads : keys.publicKeyLoads
  verify_sign : ∀ data data', keys.verify (keys.sign data) data' = true ↔ data' = data

/-- A signature is accepted for one text at most. -/
def Exact : Prop :=
  ∀ signature data data', keys.verify signature data = true → keys.verify signature data' = true →
    data = data'

variable {keys}

/-- **A signature is accepted for the text it was made for.** -/
theorem verifyDataEs256_signDataEs256 (hkeys : keys.Matching) {data data' signature : String}
    (h : keys.signDataEs256 data = some signature) :
    keys.verifyDataEs256 data' signature = true ↔ data' = data := by
  unfold signDataEs256 at h
  split_ifs at h
  obtain rfl := Option.some.inj h
  rw [verifyDataEs256, String.toList_ofList, Base64.decode_encode, hkeys.publicKeyLoads,
    Bool.true_and, hkeys.verify_sign]

/-- What `verify_data_es256` accepts one signature for is one text. -/
theorem Exact.verifyDataEs256 (hkeys : keys.Exact) {data data' signatureB64 : String}
    (h : keys.verifyDataEs256 data signatureB64 = true)
    (h' : keys.verifyDataEs256 data' signatureB64 = true) : data = data' := by
  unfold Es256.verifyDataEs256 at h h'
  cases hdecode : Base64.decode Base64.standard signatureB64.toList with
  | none => simp [hdecode] at h
  | some signature =>
      rw [hdecode, Bool.and_eq_true] at h h'
      exact hkeys signature data data' h.2 h'.2

end Es256

end Server
end CognitiveEngine
