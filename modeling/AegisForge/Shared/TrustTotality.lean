import AegisForge.Core.RaisesOnly
import AegisForge.Shared.TrustEvaluation

/-!
# Whether a trust evaluation answers

`evaluate_trust` catches what the attestor registry raises and nothing else.  Two
lookups of it are on data of any type: the outcome of the proof is asked for its
verifier, and the status of an attestor is looked up in a set.
-/

namespace AegisForge.Shared.TrustTotality

open AegisForge.Core AttestorRegistry TrustEvaluation

/-! ## What is checked before a lookup -/

/-- The attestation passes the checks that come before the registry. -/
structure AttestationHeader (attestation proof : Json) : Prop where
  isObject : attestation.isObject = true ∧ proof.isObject = true
  fields : attestation.missing attestationFields = none
  noOthers : ∀ key ∈ attestation.keys, key ∈ attestationFields
  names : ∀ field ∈ ["attestor_id", "key_id", "proof_id", "verifier"],
    ∃ name, (attestation.get field).filledText? = some name
  schema : (attestation.get "schema_version").text? = some attestationSchema ∧
    (attestation.get "algorithm").text? = some algorithm
  sameProof : ∃ proofId, (attestation.get "proof_id").filledText? = some proofId ∧
    (proof.get "proof_id").filledText? = some proofId

/-- The registry is of a pinned issuer, which is all that is checked before its
records are read. -/
structure RegistryHeader (primitives : Primitives) (registry : Json)
    (trustedIssuerPublicKeys : List (String × Bytes)) : Prop where
  isObject : registry.isObject = true
  fields : registry.missing registryFields = none
  noOthers : ∀ key ∈ registry.keys, key ∈ registryFields
  registryId : (registry.get "registry_id").filledText?.isSome = true
  attestors : isArray (registry.get "attestors") = true
  schema : (registry.get "schema_version").text? = some schemaVersion ∧
    (registry.get "algorithm").text? = some algorithm
  issuer : ∃ keyId issuer, (registry.get "issuer_key_id").text? = some keyId ∧ keyId ≠ "" ∧
    (registry.get "issuer_public_key").text?.bind primitives.decodeBase64 = some issuer ∧
      issuer.length = 32 ∧ keyId = issuerKeyId primitives issuer ∧
        trustedIssuerPublicKeys.lookup keyId = some issuer

/-- The record passes the checks that come before its status. -/
structure RecordHeader (primitives : Primitives) (payload : Json) : Prop where
  isObject : payload.isObject = true
  fields : payload.missing recordFields = none
  verifiers : ∃ allowed, verifierNames (payload.get "allowed_verifiers") = some allowed
  publicKey : ∃ raw, (payload.get "public_key").text?.bind primitives.decodeBase64 = some raw ∧
    raw.length = 32

/-- The first record that `from_dict` does not accept is not refused at the lookup of
its status. -/
def StatusesHashable (primitives : Primitives) (records : List Json) : Prop :=
  ∀ before record after, records = before ++ record :: after →
    (∀ earlier ∈ before, ∃ attestor, AttestorRecord.fromDict primitives earlier = .ok attestor) →
      RecordHeader primitives record → (record.get "status").isHashable = true

/-- An error that `evaluate_trust` catches. -/
def Caught (error : Raised) : Prop := error.cls = .attestorError

theorem caught_attestorError (message : String) : Caught (attestorError message) := rfl

theorem not_caught_typeError (message : String) : ¬Caught ⟨.typeError, message⟩ := by
  intro hcaught
  cases hcaught

/-! ## The errors of the registry -/

variable {primitives : Primitives}

theorem raisesOnly_require_bind_iff {condition : Prop} [Decidable condition]
    {message : String} {A : Type} {rest : PUnit → Except Raised A} :
    RaisesOnly Caught (require condition message >>= rest) ↔
      (condition → RaisesOnly Caught (rest ⟨⟩)) :=
  raisesOnly_raiseUnless_bind_iff (caught_attestorError message)

theorem raisesOnly_require {condition : Prop} [Decidable condition] (message : String) :
    RaisesOnly Caught (require condition message) :=
  raisesOnly_raiseUnless (caught_attestorError message)

theorem raisesOnly_requireFields_bind_iff {payload : Json} {required : List String}
    {message : String} {A : Type} {rest : PUnit → Except Raised A} :
    RaisesOnly Caught (requireFields payload required message >>= rest) ↔
      (payload.missing required = none → RaisesOnly Caught (rest ⟨⟩)) := by
  rw [requireFields]
  cases payload.missing required with
  | none => simp [bind, Except.bind]
  | some absent => simp [bind, Except.bind, caught_attestorError]

theorem raisesOnly_b64_bind_iff {value : Json} {field : String} {A : Type}
    {rest : Bytes → Except Raised A} :
    RaisesOnly Caught (b64 primitives value field >>= rest) ↔
      ∀ raw, value.text?.bind primitives.decodeBase64 = some raw →
        RaisesOnly Caught (rest raw) :=
  raisesOnly_orRaise_bind_iff (caught_attestorError _)

theorem raisesOnly_parseTime (value : Json) (field : String) :
    RaisesOnly Caught (parseTime primitives value field) :=
  raisesOnly_orRaise (caught_attestorError _)

/-- A record that passes the checks before its status is refused with a caught error
when its status can be looked up. -/
theorem raisesOnly_fromDict_iff (payload : Json) :
    RaisesOnly Caught (AttestorRecord.fromDict primitives payload) ↔
      (RecordHeader primitives payload → (payload.get "status").isHashable = true) := by
  rw [AttestorRecord.fromDict, raisesOnly_require_bind_iff, raisesOnly_requireFields_bind_iff,
    raisesOnly_orRaise_bind_iff (caught_attestorError _)]
  simp only [raisesOnly_b64_bind_iff, raisesOnly_require_bind_iff]
  have hstatus : ∀ allowed : List String, RaisesOnly Caught (do
      raiseUnless ((payload.get "status").isHashable = true) ⟨.typeError, "unhashable type"⟩
      require ((payload.get "status").text?.any (· ∈ ["ACTIVE", "SUSPENDED", "REVOKED"]) = true)
        "invalid_attestor_status"
      let start ← parseTime primitives (payload.get "valid_from") "valid_from"
      let finish ← parseTime primitives (payload.get "expires_at") "expires_at"
      require (start < finish) "invalid_attestor_validity"
      pure ({
        attestorId := str primitives (payload.get "attestor_id")
        keyId := str primitives (payload.get "key_id")
        publicKey := str primitives (payload.get "public_key")
        allowedVerifiers := sorted allowed.dedup
        status := str primitives (payload.get "status")
        validFrom := str primitives (payload.get "valid_from")
        expiresAt := str primitives (payload.get "expires_at") } : AttestorRecord)) ↔
      (payload.get "status").isHashable = true := by
    intro allowed
    rw [raisesOnly_bind_iff_of_rest, raisesOnly_raiseUnless_iff (not_caught_typeError _)]
    intro _
    refine (raisesOnly_require _).bind fun _ _ => ?_
    refine (raisesOnly_parseTime _ _).bind fun start _ => ?_
    refine (raisesOnly_parseTime _ _).bind fun finish _ => ?_
    exact (raisesOnly_require _).bind fun _ _ => raisesOnly_pure _
  simp only [hstatus]
  constructor
  · intro hraises header
    obtain ⟨allowed, hallowed⟩ := header.verifiers
    obtain ⟨raw, hraw, hlength⟩ := header.publicKey
    exact hraises header.isObject header.fields allowed hallowed raw hraw hlength
  · intro hhashable hobject hfields allowed hallowed raw hraw hlength
    exact hhashable ⟨hobject, hfields, ⟨allowed, hallowed⟩, raw, hraw, hlength⟩

/-- The records of a registry of a pinned issuer decide whether its verification raises
caught errors only. -/
theorem raisesOnly_verifyRegistry_iff (registry : Json)
    (trustedIssuerPublicKeys : List (String × Bytes)) :
    RaisesOnly Caught (verifyRegistry primitives registry trustedIssuerPublicKeys) ↔
      (RegistryHeader primitives registry trustedIssuerPublicKeys →
        StatusesHashable primitives (itemsOf (registry.get "attestors"))) := by
  rw [verifyRegistry, raisesOnly_require_bind_iff, raisesOnly_requireFields_bind_iff]
  simp only [raisesOnly_require_bind_iff, raisesOnly_b64_bind_iff,
    raisesOnly_orRaise_bind_iff (caught_attestorError _)]
  have hsigned : ∀ (issuer : Bytes) (records : List AttestorRecord), RaisesOnly Caught (do
      let _ : PUnit.{1} ← require ((records.map AttestorRecord.attestorId).Nodup)
        "duplicate_attestor_id"
      let signed := project registry
        ["schema_version", "algorithm", "registry_id", "issuer_key_id", "issuer_public_key",
          "attestors"]
      require (((registry.get "signature").text?.bind primitives.decodeBase64).any
        (fun signature => primitives.signatureValid issuer signature signed) = true)
        "registry_signature_invalid") := by
    intro issuer records
    exact (raisesOnly_require _).bind fun _ _ => raisesOnly_require _
  simp only [raisesOnly_bind_iff_of_rest (hsigned _), raisesOnly_mapM_iff,
    raisesOnly_fromDict_iff]
  constructor
  · intro hraises header
    obtain ⟨keyId, issuer, hkey, hfilled, hissuer, hlength, hid, htrusted⟩ := header.issuer
    have hanchor : trustedIssuerPublicKeys ≠ [] := by
      rintro rfl
      cases htrusted
    exact hraises header.isObject header.fields header.noOthers header.registryId
      header.attestors keyId
      (Option.filter_eq_some_iff.mpr ⟨hkey, decide_eq_true hfilled⟩) header.schema issuer hissuer
      hlength hid hanchor htrusted
  · intro hhashable hobject hfields hothers hid hattestors keyId hkey hschema issuer hissuer
      hlength hmatches _ htrusted
    obtain ⟨htext, hfilled⟩ := Option.filter_eq_some_iff.mp hkey
    exact hhashable ⟨hobject, hfields, hothers, hid, hattestors, hschema,
      keyId, issuer, htext, of_decide_eq_true hfilled, hissuer, hlength, hmatches, htrusted⟩

/-- The records of a registry that verifies are accepted, one by one. -/
theorem accepted_of_verifyRegistry {registry : Json}
    {trustedIssuerPublicKeys : List (String × Bytes)}
    (hverified : verifyRegistry primitives registry trustedIssuerPublicKeys = .ok ()) :
    ∀ raw ∈ itemsOf (registry.get "attestors"),
      ∃ record, AttestorRecord.fromDict primitives raw = .ok record := by
  obtain ⟨-, hfields⟩ := require_bind_eq_ok hverified
  obtain ⟨_, -, hothers⟩ := bind_eq_ok hfields
  obtain ⟨-, hid⟩ := require_bind_eq_ok hothers
  obtain ⟨-, hattestors⟩ := require_bind_eq_ok hid
  obtain ⟨-, hkey⟩ := require_bind_eq_ok hattestors
  obtain ⟨keyId, -, hschema⟩ := orRaise_bind_eq_ok hkey
  obtain ⟨-, hissuer⟩ := require_bind_eq_ok hschema
  obtain ⟨issuer, -, hlength⟩ := bind_eq_ok hissuer
  obtain ⟨-, hmatches⟩ := require_bind_eq_ok hlength
  obtain ⟨-, hanchor⟩ := require_bind_eq_ok hmatches
  obtain ⟨-, htrusted⟩ := require_bind_eq_ok hanchor
  obtain ⟨-, hrecords⟩ := require_bind_eq_ok htrusted
  obtain ⟨records, hmapped, -⟩ := bind_eq_ok hrecords
  exact exists_of_mapM_eq_ok hmapped

/-- The search among accepted records raises caught errors only. -/
theorem raisesOnly_findAttestor {attestorId verifier : String} {now : Time}
    {items : List Json}
    (haccepted : ∀ raw ∈ items,
      ∃ record, AttestorRecord.fromDict primitives raw = .ok record) :
    RaisesOnly Caught (findAttestor primitives attestorId verifier now items) := by
  induction items with
  | nil => exact raisesOnly_error_iff.mpr (caught_attestorError _)
  | cons raw rest ih =>
      obtain ⟨accepted, haccept⟩ := haccepted raw List.mem_cons_self
      have hraw : RaisesOnly Caught (AttestorRecord.fromDict primitives raw) := by
        rw [haccept]
        exact raisesOnly_ok accepted
      refine hraw.bind fun record _ => ?_
      split
      · exact ih fun other hother => haccepted other (List.mem_cons_of_mem raw hother)
      · refine RaisesOnly.bind ?_ fun isActive _ => ?_
        · rw [active]
          split
          · exact raisesOnly_ok _
          · refine (raisesOnly_parseTime _ _).bind fun start _ => ?_
            split
            · exact (raisesOnly_parseTime _ _).bind fun finish _ => raisesOnly_pure _
            · exact raisesOnly_pure _
        · refine (raisesOnly_require _).bind fun _ _ => ?_
          exact (raisesOnly_require _).bind fun _ _ => raisesOnly_pure _

theorem raisesOnly_resolveAttestor_iff {registry : Json} {attestorId verifier : String}
    {now : Time} {trustedIssuerPublicKeys : List (String × Bytes)} :
    RaisesOnly Caught (resolveAttestor primitives registry attestorId verifier now
      trustedIssuerPublicKeys) ↔
      (RegistryHeader primitives registry trustedIssuerPublicKeys →
        StatusesHashable primitives (itemsOf (registry.get "attestors"))) := by
  rw [resolveAttestor, raisesOnly_bind_iff, raisesOnly_verifyRegistry_iff]
  exact and_iff_left fun _ hverified =>
    raisesOnly_findAttestor (accepted_of_verifyRegistry hverified)

/-- `verify_attestation` raises caught errors only unless it comes to a record whose
status cannot be looked up. -/
theorem raisesOnly_verifyAttestation_iff {attestation proof registry : Json} {now : Time}
    {trustedIssuerPublicKeys : List (String × Bytes)} :
    RaisesOnly Caught (verifyAttestation primitives attestation proof registry now
      trustedIssuerPublicKeys) ↔
      (AttestationHeader attestation proof →
        RegistryHeader primitives registry trustedIssuerPublicKeys →
          StatusesHashable primitives (itemsOf (registry.get "attestors"))) := by
  rw [verifyAttestation, raisesOnly_require_bind_iff, raisesOnly_requireFields_bind_iff]
  simp only [raisesOnly_require_bind_iff, filledField,
    raisesOnly_orRaise_bind_iff (caught_attestorError _)]
  have hsigned : ∀ (keyId proofId verifier : String) (record : AttestorRecord),
      RaisesOnly Caught (do
      let _ : PUnit.{1} ← require (record.keyId = keyId) "attestor_key_id_mismatch"
      let issued ← parseTime primitives (attestation.get "issued_at") "issued_at"
      let start ← parseTime primitives (.text record.validFrom) "valid_from"
      let _ : PUnit.{1} ← require (start ≤ issued) "attestation_outside_attestor_validity"
      let finish ← parseTime primitives (.text record.expiresAt) "expires_at"
      let _ : PUnit.{1} ← require (issued < finish) "attestation_outside_attestor_validity"
      let signed := project attestation
        ["schema_version", "algorithm", "attestor_id", "key_id", "proof_id", "verifier",
          "issued_at"]
      let _ : PUnit.{1} ←
        require (((attestation.get "signature").text?.bind primitives.decodeBase64).any
          (fun signature => (primitives.decodeBase64 record.publicKey).any fun key =>
            primitives.signatureValid key signature signed) = true)
          "attestation_signature_invalid"
      pure ({
        attestorId := record.attestorId
        keyId := record.keyId
        proofId := proofId
        verifier := verifier
        registryId := registry.get "registry_id" } : VerifiedAttestation)) := by
    intro keyId proofId verifier record
    refine (raisesOnly_require _).bind fun _ _ => ?_
    refine (raisesOnly_parseTime _ _).bind fun issued _ => ?_
    refine (raisesOnly_parseTime _ _).bind fun start _ => ?_
    refine (raisesOnly_require _).bind fun _ _ => ?_
    refine (raisesOnly_parseTime _ _).bind fun finish _ => ?_
    refine (raisesOnly_require _).bind fun _ _ => ?_
    exact (raisesOnly_require _).bind fun _ _ => raisesOnly_pure _
  simp only [raisesOnly_bind_iff_of_rest (hsigned _ _ _), raisesOnly_resolveAttestor_iff]
  constructor
  · intro hraises header
    obtain ⟨attestorId, hattestorId⟩ := header.names "attestor_id" (by decide)
    obtain ⟨keyId, hkeyId⟩ := header.names "key_id" (by decide)
    obtain ⟨verifier, hverifier⟩ := header.names "verifier" (by decide)
    obtain ⟨proofId, hproofId, hexpected⟩ := header.sameProof
    exact hraises header.isObject header.fields header.noOthers attestorId hattestorId keyId
      hkeyId proofId hproofId verifier hverifier proofId hexpected header.schema rfl
  · intro hhashable hobject hfields hothers attestorId hattestorId keyId hkeyId proofId hproofId
      verifier hverifier expected hexpected hschema hsame
    subst hsame
    refine hhashable ⟨hobject, hfields, hothers, ?_, hschema, proofId, hproofId, hexpected⟩
    simp only [List.forall_mem_cons, List.not_mem_nil, false_imp_iff, implies_true, and_true]
    exact ⟨⟨attestorId, hattestorId⟩, ⟨keyId, hkeyId⟩, ⟨proofId, hproofId⟩, verifier, hverifier⟩

/-! ## When there is a decision -/

section Decisions

variable {proof attestation registry : Json} {now : Time}
variable {trustedIssuerPublicKeys : List (String × Bytes)}

theorem exists_namedVerifier_iff :
    (∃ verifier, namedVerifier proof = .ok verifier) ↔
      ((proof.get "outcome").isTruthy = true → (proof.get "outcome").isObject = true) := by
  rw [namedVerifier]
  split_ifs with hfalsy hobject
  · simp [hfalsy]
  · simp [hobject]
  · simp [hobject, hfalsy]

/-- The verifier that an outcome names. -/
theorem namedVerifier_eq_ok {verifier : Json} (hnamed : namedVerifier proof = .ok verifier)
    (htruthy : verifier.isTruthy = true) :
    (proof.get "outcome").isObject = true ∧ verifier = (proof.get "outcome").get "verifier" := by
  rw [namedVerifier] at hnamed
  split_ifs at hnamed with hfalsy hobject
  · obtain rfl := Except.ok.inj hnamed
    cases htruthy
  · exact ⟨hobject, (Except.ok.inj hnamed).symm⟩

theorem namedVerifier_of_isObject (hobject : (proof.get "outcome").isObject = true)
    (htruthy : ((proof.get "outcome").get "verifier").isTruthy = true) :
    namedVerifier proof = .ok ((proof.get "outcome").get "verifier") := by
  have hfilled : (proof.get "outcome").isTruthy ≠ false := by
    intro hfalsy
    cases houtcome : proof.get "outcome" with
    | object fields =>
        rw [houtcome, Json.isTruthy, Bool.not_eq_false', List.isEmpty_iff] at hfalsy
        rw [houtcome, hfalsy] at htruthy
        cases htruthy
    | _ =>
        rw [houtcome] at hobject
        cases hobject
  rw [namedVerifier, if_neg hfilled, if_pos hobject]

/-- The evaluation gets to the records of the registry: the outcome names a verifier, and
attestation and registry pass the checks that come before. -/
def ReadsRecords (primitives : Primitives) (proof attestation registry : Json)
    (trustedIssuerPublicKeys : List (String × Bytes)) : Prop :=
  (proof.get "outcome").isObject = true ∧
    ((proof.get "outcome").get "verifier").isTruthy = true ∧
      AttestationHeader attestation proof ∧
        RegistryHeader primitives registry trustedIssuerPublicKeys

/-- After the verifier there is a decision unless the verification raises an error that
is not caught. -/
theorem exists_decision_iff {verifier : Json} (hnamed : namedVerifier proof = .ok verifier) :
    (∃ decision, evaluateTrust primitives proof attestation registry now
      trustedIssuerPublicKeys = .ok decision) ↔
      ((proof.get "proof_id").isTruthy = true → verifier.isTruthy = true →
        attestation.isObject = true → registry.isObject = true →
          RaisesOnly Caught (verifyAttestation primitives attestation proof registry now
            trustedIssuerPublicKeys)) := by
  rw [evaluateTrust, hnamed]
  change (∃ decision, ite _ _ _ = _) ↔ _
  split
  case isTrue hincomplete =>
      refine iff_of_true ⟨_, rfl⟩ fun hproof hverifier => ?_
      rw [hproof, hverifier] at hincomplete
      simp at hincomplete
  case isFalse hcomplete =>
      rw [not_or, Bool.not_eq_false, Bool.not_eq_false] at hcomplete
      rw [imp_iff_right hcomplete.1, imp_iff_right hcomplete.2]
      split
      case isTrue hattestation =>
          exact iff_of_true ⟨_, rfl⟩ fun hobject => absurd hobject (by simp [hattestation])
      case isFalse hattestation =>
          rw [imp_iff_right (by simpa using hattestation)]
          split
          case isTrue hregistry =>
              exact iff_of_true ⟨_, rfl⟩ fun hobject => absurd hobject (by simp [hregistry])
          case isFalse hregistry =>
              rw [imp_iff_right (by simpa using hregistry)]
              cases hverified : verifyAttestation primitives attestation proof registry now
                trustedIssuerPublicKeys with
              | ok result => exact iff_of_true ⟨_, rfl⟩ (raisesOnly_ok result)
              | error error =>
                  rw [raisesOnly_error_iff, Caught]
                  dsimp only
                  by_cases hcaught : error.cls = .attestorError
                  · rw [if_pos hcaught]
                    exact iff_of_true ⟨_, rfl⟩ hcaught
                  · rw [if_neg hcaught]
                    simp [hcaught]

/-- There is a decision exactly if an outcome that is not empty is a dictionary, and no
record of a registry of a pinned issuer has a status that cannot be looked up. -/
theorem exists_evaluateTrust_iff (primitives : Primitives)
    (proof attestation registry : Json) (now : Time)
    (trustedIssuerPublicKeys : List (String × Bytes)) :
    (∃ decision, evaluateTrust primitives proof attestation registry now
      trustedIssuerPublicKeys = .ok decision) ↔
      ((proof.get "outcome").isTruthy = true → (proof.get "outcome").isObject = true) ∧
        (ReadsRecords primitives proof attestation registry trustedIssuerPublicKeys →
          StatusesHashable primitives (itemsOf (registry.get "attestors"))) := by
  constructor
  · rintro ⟨decision, hdecision⟩
    obtain ⟨verifier, hnamed, -⟩ := bind_eq_ok hdecision
    refine ⟨exists_namedVerifier_iff.mp ⟨verifier, hnamed⟩, ?_⟩
    rintro ⟨houtcome, htruthy, hattestation, hregistry⟩
    obtain ⟨proofId, -, hproof⟩ := hattestation.sameProof
    have hverifier : (proof.get "outcome").get "verifier" = verifier :=
      Except.ok.inj ((namedVerifier_of_isObject houtcome htruthy).symm.trans hnamed)
    have honly := (exists_decision_iff hnamed).mp ⟨decision, hdecision⟩
      (Json.isTruthy_of_filledText? hproof) (hverifier ▸ htruthy) hattestation.isObject.1
      hregistry.isObject
    exact raisesOnly_verifyAttestation_iff.mp honly hattestation hregistry
  · rintro ⟨houtcome, hrecords⟩
    obtain ⟨verifier, hnamed⟩ := exists_namedVerifier_iff.mpr houtcome
    refine (exists_decision_iff hnamed).mpr fun _ htruthy _ _ => ?_
    obtain ⟨hobject, rfl⟩ := namedVerifier_eq_ok hnamed htruthy
    exact raisesOnly_verifyAttestation_iff.mpr fun hattestation hregistry =>
      hrecords ⟨hobject, htruthy, hattestation, hregistry⟩

/-- An outcome that is a text has no verifier to ask for. -/
theorem not_exists_evaluateTrust_textOutcome :
    ¬∃ decision, evaluateTrust Sample.primitives
      (.object [("proof_id", .text "proof-1"), ("outcome", .text "PROVEN")])
      Sample.attestation Sample.registry 1
      [("registry-0123456789abcdef", List.replicate 32 0)] = .ok decision := by
  rintro ⟨decision, hdecision⟩
  obtain ⟨verifier, hnamed, -⟩ := bind_eq_ok hdecision
  cases hnamed

end Decisions

end AegisForge.Shared.TrustTotality
