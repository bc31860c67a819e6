import AegisForge.Shared.AttestorRegistry
import AegisForge.Shared.AuthorityState

/-!
# Trust evaluation

`evaluate_trust` answers the verifier that the proof names.  The attestation
names a verifier of its own, and that is the one the registry is asked about.
-/

namespace AegisForge.Shared.TrustEvaluation

open AegisForge.Core AttestorRegistry

structure TrustDecision where
  status : TrustStatus
  reason : String
  proofId : Json
  verifier : Json
  attestorId : Json := .null
  registryId : Json := .null
  evaluatedAt : Time

/-- `((proof or {}).get("outcome") or {}).get("verifier")`, which raises when the
outcome is something else than a dictionary. -/
def namedVerifier (proof : Json) : Except Raised Json :=
  if (proof.get "outcome").isTruthy = false then .ok .null
  else if (proof.get "outcome").isObject = true then .ok ((proof.get "outcome").get "verifier")
  else .error ⟨.attributeError, "object has no attribute 'get'"⟩

/-- `str(value or "")`. -/
def strOrEmpty (primitives : Primitives) (value : Json) : Json :=
  .text (if value.isTruthy = true then str primitives value else "")

/-- `str(value)` on what may be compared with `==`. -/
def sameText (left right : Json) : Bool :=
  match left, right with
  | .text left, .text right => left = right
  | _, _ => false

/-- The status of a decision about an attestor that is not active: expired when
its record has run out. -/
def inactiveStatus (primitives : Primitives) (attestation registry : Json) (now : Time) :
    TrustStatus :=
  match (itemsOf (registry.get "attestors")).find? fun record =>
      sameText (record.get "attestor_id") (attestation.get "attestor_id") with
  | none => .untrusted
  | some record =>
      match (record.get "expires_at").text?.bind primitives.fromIsoFormat with
      | none => .untrusted
      | some expiry => if expiry ≤ now then .expired else .untrusted

def refusalStatus (primitives : Primitives) (attestation registry : Json) (now : Time)
    (reason : String) : TrustStatus :=
  if reason = "attestor_not_active" then
    inactiveStatus primitives attestation registry now
  else if reason = "attestation_outside_attestor_validity" then .expired
  else .untrusted

/-- `evaluate_trust` at the time `now`. -/
def evaluateTrust (primitives : Primitives) (proof attestation registry : Json) (now : Time)
    (trustedIssuerPublicKeys : List (String × Bytes)) : Except Raised TrustDecision := do
  let proofId := proof.get "proof_id"
  let verifier ← namedVerifier proof
  if proofId.isTruthy = false ∨ verifier.isTruthy = false then
    pure {
      status := .untrusted
      reason := "proof_identity_incomplete"
      proofId := strOrEmpty primitives proofId
      verifier := strOrEmpty primitives verifier
      evaluatedAt := now }
  else if attestation.isObject = false then
    pure {
      status := .untrusted
      reason := "attestation_missing"
      proofId := proofId
      verifier := verifier
      evaluatedAt := now }
  else if registry.isObject = false then
    pure {
      status := .untrusted
      reason := "attestor_registry_missing"
      proofId := proofId
      verifier := verifier
      evaluatedAt := now }
  else
    match
      verifyAttestation primitives attestation proof registry now trustedIssuerPublicKeys
    with
    | .ok result =>
        pure {
          status := .trusted
          reason := "authorized_active_attestor"
          proofId := proofId
          verifier := verifier
          attestorId := .text result.attestorId
          registryId := result.registryId
          evaluatedAt := now }
    | .error error =>
        if error.cls = .attestorError then
          pure {
            status := refusalStatus primitives attestation registry now error.message
            reason := error.message
            proofId := proofId
            verifier := verifier
            attestorId := attestation.get "attestor_id"
            registryId := registry.get "registry_id"
            evaluatedAt := now }
        else .error error

section Decisions

variable {primitives : Primitives} {proof attestation registry : Json} {now : Time}
variable {trustedIssuerPublicKeys : List (String × Bytes)}

theorem refusalStatus_ne_trusted (reason : String) :
    refusalStatus primitives attestation registry now reason ≠ .trusted := by
  rw [refusalStatus]
  split
  · rw [inactiveStatus]
    split
    · nofun
    · split
      · nofun
      · split <;> nofun
  · split <;> nofun

/-- A trusted decision reports the verifier that the proof names, about an
attestation that verifies. -/
theorem evaluateTrust_trusted {decision : TrustDecision}
    (hdecision : evaluateTrust primitives proof attestation registry now
      trustedIssuerPublicKeys = .ok decision)
    (htrusted : decision.status = .trusted) :
    namedVerifier proof = .ok decision.verifier ∧ decision.verifier.isTruthy = true ∧
      ∃ result, verifyAttestation primitives attestation proof registry now
        trustedIssuerPublicKeys = .ok result := by
  obtain ⟨verifier, hverifier, hevaluated⟩ := bind_eq_ok hdecision
  split at hevaluated
  case isTrue =>
    obtain rfl := Except.ok.inj hevaluated
    cases htrusted
  case isFalse hcomplete =>
    split at hevaluated
    case isTrue =>
      obtain rfl := Except.ok.inj hevaluated
      cases htrusted
    case isFalse =>
      split at hevaluated
      case isTrue =>
        obtain rfl := Except.ok.inj hevaluated
        cases htrusted
      case isFalse =>
        split at hevaluated
        case h_1 result hverified =>
          obtain rfl := Except.ok.inj hevaluated
          rw [not_or, Bool.not_eq_false, Bool.not_eq_false] at hcomplete
          exact ⟨hverifier, hcomplete.2, result, hverified⟩
        case h_2 error _ =>
          split at hevaluated
          case isTrue =>
            obtain rfl := Except.ok.inj hevaluated
            exact absurd htrusted (refusalStatus_ne_trusted error.message)
          case isFalse => cases hevaluated

/-- An attestation that verifies makes the decision about a named verifier a
trusted one. -/
theorem evaluateTrust_of_verified {verifier : Json} {result : VerifiedAttestation}
    (hnamed : namedVerifier proof = .ok verifier) (htruthy : verifier.isTruthy = true)
    (hverified : verifyAttestation primitives attestation proof registry now
      trustedIssuerPublicKeys = .ok result) :
    ∃ decision, evaluateTrust primitives proof attestation registry now
      trustedIssuerPublicKeys = .ok decision ∧ decision.status = .trusted ∧
        decision.verifier = verifier := by
  obtain ⟨hattestation, hregistry, hproof, -⟩ := verifyAttestation_eq_ok hverified
  have hdecision : evaluateTrust primitives proof attestation registry now
      trustedIssuerPublicKeys = .ok {
        status := .trusted
        reason := "authorized_active_attestor"
        proofId := proof.get "proof_id"
        verifier := verifier
        attestorId := .text result.attestorId
        registryId := result.registryId
        evaluatedAt := now } := by
    rw [evaluateTrust, hnamed]
    simp [hproof, htruthy, hattestation, hregistry, hverified, bind, Except.bind, pure,
      Except.pure]
  exact ⟨_, hdecision, rfl, rfl⟩

end Decisions

/-! ## The verifier that is trusted -/

/-- A trusted decision is about the verifier that the proof and the signed
attestation both name, and that the attestor may attest for. -/
def TrustsAuthorized (primitives : Primitives) (proof attestation registry : Json)
    (now : Time) (trustedIssuerPublicKeys : List (String × Bytes)) : Prop :=
  ∀ decision, evaluateTrust primitives proof attestation registry now
      trustedIssuerPublicKeys = .ok decision → decision.status = .trusted →
    namedVerifier proof = .ok decision.verifier ∧
      ∃ verifier, decision.verifier = .text verifier ∧
        attestation.get "verifier" = .text verifier ∧
          Authorizes primitives registry attestation verifier

/-- The verifier that the proof names is the one that a valid attestation names. -/
def SameVerifier (primitives : Primitives) (proof attestation registry : Json)
    (now : Time) (trustedIssuerPublicKeys : List (String × Bytes)) : Prop :=
  ∀ verifier result, namedVerifier proof = .ok verifier → verifier.isTruthy = true →
    verifyAttestation primitives attestation proof registry now trustedIssuerPublicKeys =
      .ok result → attestation.get "verifier" = verifier

/-- Exactly where proof and attestation name one verifier does a trusted decision
speak about a verifier that the attestor may attest for. -/
theorem trustsAuthorized_iff_sameVerifier (primitives : Primitives)
    (proof attestation registry : Json) (now : Time)
    (trustedIssuerPublicKeys : List (String × Bytes)) :
    TrustsAuthorized primitives proof attestation registry now trustedIssuerPublicKeys ↔
      SameVerifier primitives proof attestation registry now trustedIssuerPublicKeys := by
  constructor
  · intro htrusts verifier result hnamed htruthy hverified
    obtain ⟨decision, hdecision, htrusted, hreported⟩ :=
      evaluateTrust_of_verified hnamed htruthy hverified
    obtain ⟨-, text, htext, hattested, -⟩ := htrusts decision hdecision htrusted
    rw [hattested, ← htext, hreported]
  · intro hsame decision hdecision htrusted
    obtain ⟨hnamed, htruthy, result, hverified⟩ := evaluateTrust_trusted hdecision htrusted
    obtain ⟨-, -, -, verifier, hattested, hauthorizes⟩ := verifyAttestation_eq_ok hverified
    have hverifier := hsame decision.verifier result hnamed htruthy hverified
    exact ⟨hnamed, verifier, hverifier.symm.trans hattested, hattested, hauthorizes⟩

/-! ## An attestor of another verifier -/

namespace Sample

/-- Texts stand for their own encodings, and every signature is good. -/
def primitives : Primitives where
  textOf := fun _ => ""
  decodeBase64 := fun _ => some (List.replicate 32 0)
  sha256 := fun _ => "0123456789abcdef"
  fromIsoFormat := fun text =>
    if text = "2024-01-01" then some 0
    else if text = "2024-01-02" then some 1
    else if text = "2024-01-03" then some 2
    else none
  signatureValid := fun _ _ _ => true

/-- An attestor that may attest for the artifact verifier alone. -/
def record : Json :=
  .object [("attestor_id", .text "attestor-1"), ("key_id", .text "key-1"),
    ("public_key", .text "attestor-key"),
    ("allowed_verifiers", .array [.text "artifact_independent_v1"]),
    ("status", .text "ACTIVE"), ("valid_from", .text "2024-01-01"),
    ("expires_at", .text "2024-01-03")]

def registry : Json :=
  .object [("schema_version", .text "attestor-registry-v1"), ("algorithm", .text "Ed25519"),
    ("registry_id", .text "aegisforge-root"),
    ("issuer_key_id", .text "registry-0123456789abcdef"),
    ("issuer_public_key", .text "issuer-key"), ("attestors", .array [record]),
    ("signature", .text "registry-signature")]

def attestation : Json :=
  .object [("schema_version", .text "outcome-attestation-v1"),
    ("algorithm", .text "Ed25519"), ("attestor_id", .text "attestor-1"),
    ("key_id", .text "key-1"), ("proof_id", .text "proof-1"),
    ("verifier", .text "artifact_independent_v1"), ("issued_at", .text "2024-01-02"),
    ("signature", .text "attestation-signature")]

/-- A proof whose outcome names the verifier of another domain. -/
def proof : Json :=
  .object [("proof_id", .text "proof-1"),
    ("outcome", .object [("verifier", .text "http_outcome_v1")])]

end Sample

/-- The outcome of a verifier that nobody attested for is trusted. -/
theorem not_trustsAuthorized_otherVerifier :
    ¬TrustsAuthorized Sample.primitives Sample.proof Sample.attestation Sample.registry 1
      [("registry-0123456789abcdef", List.replicate 32 0)] := by
  intro htrusts
  have htrusted : (evaluateTrust Sample.primitives Sample.proof Sample.attestation
      Sample.registry 1 [("registry-0123456789abcdef", List.replicate 32 0)]).toOption.any
        (fun decision => decision.status = .trusted &&
          decision.verifier.text? = some "http_outcome_v1") = true := by
    decide +kernel
  cases hdecision : evaluateTrust Sample.primitives Sample.proof Sample.attestation
      Sample.registry 1 [("registry-0123456789abcdef", List.replicate 32 0)] with
  | error error =>
      rw [hdecision] at htrusted
      cases htrusted
  | ok decision =>
      rw [hdecision] at htrusted
      simp only [Except.toOption, Option.any_some, Bool.and_eq_true, decide_eq_true_eq]
        at htrusted
      obtain ⟨-, verifier, hreported, hattested, -⟩ :=
        htrusts decision hdecision htrusted.1
      rw [hreported] at htrusted
      have hnames : (Sample.attestation.get "verifier").text? =
          some "artifact_independent_v1" := by
        decide +kernel
      rw [hattested] at hnames
      have hsame := htrusted.2.symm.trans hnames
      exact absurd hsame (by decide)

end AegisForge.Shared.TrustEvaluation
