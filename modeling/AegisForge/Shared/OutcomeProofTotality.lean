import AegisForge.Core.RaisesOnly
import AegisForge.Shared.OutcomeProof

/-!
# Whether a verification of an outcome proof fails closed

The callers of `verify_outcome_proof` catch `OutcomeProofError`.  Four reads of it
are of data that its checks leave open: the manifest is not among the required
fields, two missing key ids are equal, the body of a grant is asked for its fields
whatever it is, and an outcome and its contract may both name no verifier.
-/

namespace AegisForge.Shared.OutcomeProof

open AegisForge.Core

/-! ## What the checks establish -/

/-- Every check of the list is passed. -/
def Passes (checks : List (Bool × String)) : Prop := ∀ check ∈ checks, check.1 = true

variable {primitives : Primitives} {proof : Json} {publicKey : Octets}

/-- The proof passes `_validate_shape`. -/
structure IsShaped (primitives : Primitives) (proof : Json) : Prop where
  header : Passes (headerChecks proof)
  manifest : (proof.get "evidence_manifest").isObject = true
  verified : ∃ result, EvidenceManifest.verifyManifest primitives.sha256
    (proof.get "evidence_manifest") = .ok result
  outcome : Passes (outcomeChecks proof)

/-- The proof has its id and is signed with the key that it carries. -/
structure IsSigned (primitives : Primitives) (proof : Json) (publicKey : Octets) : Prop where
  proofId : proof.get "proof_id" =
    .text (primitives.sha256 (canonicalJson (integrityPayload proof))).text
  key : primitives.urlsafeB64decode (proof.get "public_key") = some publicKey
  keyLength : publicKey.length = 32
  signature : ∃ signature, primitives.urlsafeB64decode (proof.get "signature") = some signature ∧
    signature.length = 64 ∧
      primitives.verify publicKey signature (canonicalJson (signaturePayload proof)) = true

/-- The grant names the key id of the proof, as far as both name one, and has a signature
that is decoded. -/
structure NamesSigner (primitives : Primitives) (proof : Json) : Prop where
  algorithm : (proof.get "grant").get "algorithm" = .text algorithm
  keyId : ((proof.get "grant").get "key_id").equal (proof.get "key_id") = true
  signature : (primitives.urlsafeB64decode (grantSignature (proof.get "grant"))).isSome = true

/-- The grant is signed with the key. -/
def IsGranted (primitives : Primitives) (proof : Json) (publicKey : Octets) : Prop :=
  ∃ signature, primitives.urlsafeB64decode (grantSignature (proof.get "grant")) = some signature ∧
    primitives.verify publicKey signature
      (canonicalJson (grantPayload (proof.get "grant") ((proof.get "grant").get "key_id"))) = true

/-- The parts of the proof belong to each other. -/
structure IsBound (primitives : Primitives) (proof : Json) : Prop where
  bindings : Passes (bindingChecks proof (grantBody (proof.get "grant")))
  artifacts : EvidenceManifest.verifyArtifactBindings primitives.sha256
    (proof.get "evidence_manifest") (artifacts proof) = .ok ⟨⟩
  outcomeId : ((proof.get "outcome").get "outcome_id").equal
    ((proof.get "evidence").get "outcome_id") = true

/-! ## The errors of the checks -/

/-- An error that the callers catch. -/
def Caught (error : Raised) : Prop := error.cls = .outcomeProofError

theorem caught_outcomeProofError (message : String) : Caught (outcomeProofError message) := rfl

theorem not_caught_keyError (message : String) : ¬Caught ⟨.keyError, message⟩ := by
  intro hcaught
  cases hcaught

theorem not_caught_attributeError (message : String) : ¬Caught ⟨.attributeError, message⟩ := by
  intro hcaught
  cases hcaught

section Checks

variable {A B : Type} {rest : A → Except Raised B}

theorem raisesOnly_require {condition : Prop} [Decidable condition] (message : String) :
    RaisesOnly Caught (require condition message) :=
  raisesOnly_raiseUnless (caught_outcomeProofError message)

theorem raisesOnly_require_bind_iff {condition : Prop} [Decidable condition] {message : String}
    {rest : Unit → Except Raised B} :
    RaisesOnly Caught (require condition message >>= rest) ↔
      (condition → RaisesOnly Caught (rest ⟨⟩)) :=
  raisesOnly_raiseUnless_bind_iff (caught_outcomeProofError message)

theorem raisesOnly_requireAll (checks : List (Bool × String)) :
    RaisesOnly Caught (requireAll checks) :=
  raisesOnly_forM fun check _ => raisesOnly_require check.2

theorem requireAll_eq_ok_iff {checks : List (Bool × String)} :
    requireAll checks = .ok ⟨⟩ ↔ Passes checks := by
  rw [requireAll, forM_eq_ok_iff]
  refine forall_congr' fun check => imp_congr_right fun _ => ?_
  exact ⟨raiseUnless_eq_ok, fun hcheck => if_pos hcheck⟩

theorem requireAll_bind_eq_ok_iff {checks : List (Bool × String)}
    {rest : Unit → Except Raised B} {value : B} :
    requireAll checks >>= rest = .ok value ↔ Passes checks ∧ rest ⟨⟩ = .ok value := by
  rw [bind_eq_ok_iff, ← requireAll_eq_ok_iff]
  constructor
  · rintro ⟨_, hchecks, hrest⟩
    exact ⟨hchecks, hrest⟩
  · rintro ⟨hchecks, hrest⟩
    exact ⟨_, hchecks, hrest⟩

theorem raisesOnly_requireAll_bind_iff {checks : List (Bool × String)}
    {rest : Unit → Except Raised B} :
    RaisesOnly Caught (requireAll checks >>= rest) ↔
      (Passes checks → RaisesOnly Caught (rest ⟨⟩)) := by
  rw [(raisesOnly_requireAll checks).bind_iff, ← requireAll_eq_ok_iff]
  exact ⟨fun hrest => hrest ⟨⟩, fun hrest _ => hrest⟩

theorem wrapped_eq_ok_iff {computation : Except Raised A} {value : A} :
    wrapped computation = .ok value ↔ computation = .ok value := by
  cases computation with
  | ok computed => exact Iff.rfl
  | error error =>
      constructor
      · intro hwrapped
        cases hwrapped
      · intro hcomputed
        cases hcomputed

/-- What is wrapped raises caught errors only. -/
theorem raisesOnly_wrapped (computation : Except Raised A) :
    RaisesOnly Caught (wrapped computation) := by
  cases computation with
  | ok value => exact raisesOnly_ok value
  | error error => exact raisesOnly_error_iff.mpr (caught_outcomeProofError error.message)

theorem raisesOnly_b64decode_bind_iff {value : Json} {field : String}
    {rest : Octets → Except Raised B} :
    RaisesOnly Caught (b64decode primitives value field >>= rest) ↔
      ∀ raw, primitives.urlsafeB64decode value = some raw → RaisesOnly Caught (rest raw) :=
  raisesOnly_orRaise_bind_iff (caught_outcomeProofError _)

theorem item_bind_eq_ok_iff {value : Json} {key : String} {rest : Json → Except Raised B}
    {result : B} :
    item value key >>= rest = .ok result ↔
      key ∈ value.keys ∧ rest (value.get key) = .ok result := by
  rw [item, orRaise_bind_eq_ok_iff]
  by_cases hkey : key ∈ value.keys
  · simp [Json.get?_eq_some_get hkey, hkey]
  · simp [Json.get?_eq_none hkey, hkey]

/-- A field that is read must be there. -/
theorem raisesOnly_item_bind_iff {value : Json} {key : String} {rest : Json → Except Raised B} :
    RaisesOnly Caught (item value key >>= rest) ↔
      key ∈ value.keys ∧ RaisesOnly Caught (rest (value.get key)) := by
  rw [item, raisesOnly_orRaise_bind_iff_isSome (not_caught_keyError _)]
  by_cases hkey : key ∈ value.keys
  · simp [Json.get?_eq_some_get hkey, hkey]
  · simp [Json.get?_eq_none hkey, hkey]

theorem mem_keys_of_isObject {value : Json} {key : String}
    (hobject : (value.get key).isObject = true) : key ∈ value.keys := by
  by_contra hkey
  rw [Json.get, Json.get?_eq_none hkey] at hobject
  cases hobject

end Checks

/-! ## The errors of the stages -/

theorem raisesOnly_validateShape_iff :
    RaisesOnly Caught (validateShape primitives proof) ↔
      (Passes (headerChecks proof) → "evidence_manifest" ∈ proof.keys) := by
  rw [validateShape, raisesOnly_requireAll_bind_iff]
  refine imp_congr_right fun _ => ?_
  rw [raisesOnly_item_bind_iff]
  refine and_iff_left ((raisesOnly_require _).bind fun _ _ => ?_)
  exact (raisesOnly_wrapped _).bind fun _ _ => raisesOnly_requireAll _

theorem validateShape_eq_ok_iff :
    validateShape primitives proof = .ok ⟨⟩ ↔ IsShaped primitives proof := by
  rw [validateShape, requireAll_bind_eq_ok_iff, item_bind_eq_ok_iff, require,
    raiseUnless_bind_eq_ok_iff, bind_eq_ok_iff]
  simp only [wrapped_eq_ok_iff, requireAll_eq_ok_iff]
  constructor
  · rintro ⟨hheader, -, hmanifest, result, hresult, houtcome⟩
    exact ⟨hheader, hmanifest, ⟨result, hresult⟩, houtcome⟩
  · rintro ⟨hheader, hmanifest, ⟨result, hresult⟩, houtcome⟩
    exact ⟨hheader, mem_keys_of_isObject hmanifest, hmanifest, result, hresult, houtcome⟩

theorem raisesOnly_verifySignature (primitives : Primitives) (proof : Json) :
    RaisesOnly Caught (verifySignature primitives proof) := by
  rw [verifySignature, raisesOnly_require_bind_iff]
  intro _
  rw [raisesOnly_b64decode_bind_iff]
  intro publicBytes _
  rw [raisesOnly_require_bind_iff]
  intro _
  rw [raisesOnly_b64decode_bind_iff]
  intro signature _
  rw [raisesOnly_require_bind_iff]
  intro _
  rw [raisesOnly_require_bind_iff]
  intro _
  exact raisesOnly_pure publicBytes

theorem verifySignature_eq_ok_iff :
    verifySignature primitives proof = .ok publicKey ↔ IsSigned primitives proof publicKey := by
  rw [verifySignature]
  simp only [require, b64decode, raiseUnless_bind_eq_ok_iff, orRaise_bind_eq_ok_iff, pure,
    Except.pure, Except.ok.injEq]
  constructor
  · rintro ⟨hproofId, _, hkey, hlength, signature, hsignature, hsigned, hvalid, rfl⟩
    exact ⟨hproofId, hkey, hlength, signature, hsignature, hsigned, hvalid⟩
  · rintro ⟨hproofId, hkey, hlength, signature, hsignature, hsigned, hvalid⟩
    exact ⟨hproofId, publicKey, hkey, hlength, signature, hsignature, hsigned, hvalid, rfl⟩

theorem raisesOnly_verifyGrant_iff :
    RaisesOnly Caught (verifyGrant primitives proof publicKey) ↔
      (NamesSigner primitives proof → "key_id" ∈ (proof.get "grant").keys) := by
  rw [verifyGrant]
  simp only [raisesOnly_require_bind_iff, raisesOnly_b64decode_bind_iff,
    raisesOnly_item_bind_iff, and_iff_left (raisesOnly_require _)]
  constructor
  · rintro hraises ⟨halgorithm, hkeyId, hdecoded⟩
    obtain ⟨signature, hsignature⟩ := Option.isSome_iff_exists.mp hdecoded
    exact hraises halgorithm hkeyId signature hsignature
  · intro hkey halgorithm hkeyId signature hsignature
    exact hkey ⟨halgorithm, hkeyId, Option.isSome_iff_exists.mpr ⟨signature, hsignature⟩⟩

theorem verifyGrant_eq_ok_iff :
    verifyGrant primitives proof publicKey = .ok ⟨⟩ ↔
      NamesSigner primitives proof ∧ "key_id" ∈ (proof.get "grant").keys ∧
        IsGranted primitives proof publicKey := by
  rw [verifyGrant]
  simp only [require, b64decode, raiseUnless_bind_eq_ok_iff, orRaise_bind_eq_ok_iff,
    item_bind_eq_ok_iff]
  constructor
  · rintro ⟨halgorithm, hkeyId, signature, hsignature, hkey, hvalid⟩
    exact ⟨⟨halgorithm, hkeyId, Option.isSome_iff_exists.mpr ⟨signature, hsignature⟩⟩, hkey,
      signature, hsignature, raiseUnless_eq_ok hvalid⟩
  · rintro ⟨⟨halgorithm, hkeyId, -⟩, hkey, signature, hsignature, hvalid⟩
    exact ⟨halgorithm, hkeyId, signature, hsignature, hkey, if_pos hvalid⟩

theorem raisesOnly_verifyBindings_iff :
    RaisesOnly Caught (verifyBindings primitives proof) ↔
      (grantBody (proof.get "grant")).isObject = true ∧
        (IsBound primitives proof → "verifier" ∈ (proof.get "outcome").keys) := by
  rw [verifyBindings, raisesOnly_bind_iff,
    raisesOnly_raiseUnless_iff (not_caught_attributeError _)]
  refine and_congr_right fun hobject => ?_
  simp only [raisesOnly_requireAll_bind_iff, (raisesOnly_wrapped _).bind_iff,
    wrapped_eq_ok_iff, raisesOnly_require_bind_iff, raisesOnly_item_bind_iff,
    and_iff_left (raisesOnly_pure _)]
  constructor
  · rintro hraises ⟨hbindings, hartifacts, houtcomeId⟩
    exact hraises ⟨⟩ (if_pos hobject) hbindings ⟨⟩ hartifacts houtcomeId
  · intro hverifier _ _ hbindings _ hartifacts houtcomeId
    exact hverifier ⟨hbindings, hartifacts, houtcomeId⟩

/-! ## Failing closed -/

theorem raisesOnly_verifyOutcomeProof_iff :
    RaisesOnly Caught (verifyOutcomeProof primitives proof) ↔
      (Passes (headerChecks proof) → "evidence_manifest" ∈ proof.keys) ∧
        ∀ publicKey, IsShaped primitives proof → IsSigned primitives proof publicKey →
          NamesSigner primitives proof →
            "key_id" ∈ (proof.get "grant").keys ∧ (IsGranted primitives proof publicKey →
              (grantBody (proof.get "grant")).isObject = true ∧
                (IsBound primitives proof → "verifier" ∈ (proof.get "outcome").keys)) := by
  rw [verifyOutcomeProof, raisesOnly_bind_iff, raisesOnly_validateShape_iff]
  refine and_congr_right fun _ => ?_
  simp only [(raisesOnly_verifySignature primitives proof).bind_iff, verifySignature_eq_ok_iff]
  have hgrant : ∀ publicKey : Octets, RaisesOnly Caught
      (verifyGrant primitives proof publicKey >>= fun _ => verifyBindings primitives proof) ↔
        (NamesSigner primitives proof →
          "key_id" ∈ (proof.get "grant").keys ∧ (IsGranted primitives proof publicKey →
            (grantBody (proof.get "grant")).isObject = true ∧
              (IsBound primitives proof → "verifier" ∈ (proof.get "outcome").keys))) := by
    intro publicKey
    rw [raisesOnly_bind_iff, raisesOnly_verifyGrant_iff]
    simp only [raisesOnly_verifyBindings_iff]
    constructor
    · rintro ⟨hkey, hbindings⟩ hnames
      exact ⟨hkey hnames, fun hgranted =>
        hbindings ⟨⟩ (verifyGrant_eq_ok_iff.mpr ⟨hnames, hkey hnames, hgranted⟩)⟩
    · intro hall
      refine ⟨fun hnames => (hall hnames).1, ?_⟩
      intro _ hverified
      obtain ⟨hnames, -, hgranted⟩ := verifyGrant_eq_ok_iff.mp hverified
      exact (hall hnames).2 hgranted
  simp only [hgrant]
  constructor
  · intro hall publicKey hshaped hsigned
    exact hall ⟨⟩ (validateShape_eq_ok_iff.mpr hshaped) publicKey hsigned
  · intro hall _ hshaped publicKey hsigned
    exact hall publicKey (validateShape_eq_ok_iff.mp hshaped) hsigned

theorem answers_or_refuses_iff {A : Type} {computation : Except Raised A} :
    ((∃ value, computation = .ok value) ∨
      ∃ message, computation = .error (outcomeProofError message)) ↔
        RaisesOnly Caught computation := by
  cases computation with
  | ok value => exact iff_of_true (Or.inl ⟨value, rfl⟩) (raisesOnly_ok value)
  | error error =>
      rw [raisesOnly_error_iff]
      constructor
      · rintro (⟨value, hvalue⟩ | ⟨message, hmessage⟩)
        · cases hvalue
        · rw [Except.error.inj hmessage]
          exact caught_outcomeProofError message
      · intro hcaught
        obtain ⟨cls, message⟩ := error
        obtain rfl : cls = .outcomeProofError := hcaught
        exact Or.inr ⟨message, rfl⟩

/-- A verification answers or refuses exactly if each of the four fields that it reads
unchecked is there where it comes to be read. -/
theorem verifyOutcomeProof_failsClosed_iff (primitives : Primitives) (proof : Json) :
    ((∃ verdict, verifyOutcomeProof primitives proof = .ok verdict) ∨
      ∃ message, verifyOutcomeProof primitives proof = .error (outcomeProofError message)) ↔
      (Passes (headerChecks proof) → "evidence_manifest" ∈ proof.keys) ∧
        ∀ publicKey, IsShaped primitives proof → IsSigned primitives proof publicKey →
          NamesSigner primitives proof →
            "key_id" ∈ (proof.get "grant").keys ∧ (IsGranted primitives proof publicKey →
              (grantBody (proof.get "grant")).isObject = true ∧
                (IsBound primitives proof → "verifier" ∈ (proof.get "outcome").keys)) := by
  rw [answers_or_refuses_iff, raisesOnly_verifyOutcomeProof_iff]

namespace Sample

def noSignatures : Primitives where
  urlsafeB64decode := fun _ => none
  verify := fun _ _ _ => false
  sha256 := Sha256.sha256

/-- A proof with the required fields only. -/
def requiredOnly : Json :=
  .object [
    ("algorithm", .text "Ed25519"),
    ("evidence", .object []),
    ("grant", .object []),
    ("key_id", .text "key-1"),
    ("outcome", .object []),
    ("outcome_contract", .object []),
    ("proof_id", .text "proof-1"),
    ("public_key", .text ""),
    ("receipt", .object []),
    ("schema_version", .text "outcome-proof-v1"),
    ("signature", .text "")]

end Sample

/-- A proof without a manifest is not refused but raises a `KeyError`. -/
theorem not_failsClosed_withoutManifest :
    ¬∀ (primitives : Primitives) (proof : Json),
      (∃ verdict, verifyOutcomeProof primitives proof = .ok verdict) ∨
        ∃ message, verifyOutcomeProof primitives proof = .error (outcomeProofError message) := by
  intro hall
  have honly := answers_or_refuses_iff.mp (hall Sample.noSignatures Sample.requiredOnly)
  have hheader : Passes (headerChecks Sample.requiredOnly) := by
    rw [← requireAll_eq_ok_iff]
    rfl
  have hmanifest : "evidence_manifest" ∈ Sample.requiredOnly.keys :=
    (raisesOnly_verifyOutcomeProof_iff.mp honly).1 hheader
  exact absurd hmanifest (by decide)

end AegisForge.Shared.OutcomeProof
