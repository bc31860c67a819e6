import AegisForge.Shared.RecoveryArtifact
import AegisForge.Shared.RecoveryTrust

/-!
# Temporal recovery proofs

A proof signs a recovery artifact together with the trust event that made the
signer active.  It is verified against the trust history, so it stays valid
when the signer is suspended or revoked later.
-/

namespace AegisForge.Shared.RecoveryTemporal

open AegisForge.Core RecoveryTrust
open AttestorRegistry (Bytes project)

/-- The primitives that come from outside. -/
structure Primitives extends RecoveryTrust.Primitives where
  artifacts : RecoveryArtifact.Primitives
  /-- SHA-256 of the canonical JSON of a dictionary. -/
  canonicalHash : Json → String
  /-- `base64.urlsafe_b64encode`. -/
  encodeBase64 : Bytes → String
  /-- Whether an Ed25519 signature by a public key covers the canonical JSON. -/
  signatureValid : Bytes → Bytes → Json → Bool

def schemaVersion : String := "recovery-temporal-proof-v1"

def algorithm : String := "Ed25519"

def temporalError (message : String) : Raised := ⟨.temporalTrustError, message⟩

/-- `if not condition: raise TemporalTrustError(message)`. -/
def ensure (condition : Prop) [Decidable condition] (message : String) : Except Raised PUnit :=
  raiseUnless condition (temporalError message)

/-- Every required field is there; the error names the first that is missing. -/
def ensureFields (payload : Json) (required : List String) (message : String) :
    Except Raised PUnit :=
  match required.find? fun field => decide (field ∉ payload.keys) with
  | some field => .error (temporalError (message ++ ":" ++ field))
  | none => .ok ⟨⟩

/-- `trust_event_id`. -/
def trustEventId (primitives : Primitives) (keyId event : Json) : Except Raised String := do
  let keyId ← orRaise (temporalError "trust_key_id_required")
    (keyId.text?.filter fun keyId => keyId ≠ "")
  ensure (event.isObject = true) "trust_event_required"
  ensureFields event ["from_status", "to_status", "occurred_at", "reason"]
    "trust_event_field_missing"
  pure (primitives.canonicalHash (.object [
    ("key_id", .text keyId),
    ("from_status", event.get "from_status"),
    ("to_status", event.get "to_status"),
    ("occurred_at", event.get "occurred_at"),
    ("reason", event.get "reason")]))

/-- `_decode`. -/
def decode (primitives : Primitives) (value : Json) (field : String) : Except Raised Bytes :=
  orRaise (temporalError ("invalid_base64:" ++ field))
    (primitives.decodeBase64 (RecoveryArtifact.str primitives.artifacts value))

structure TrustContext where
  keyId : String
  publicKey : String
  eventId : String
  event : TrustEvent

/-- `current_trust_context`. -/
def currentTrustContext (primitives : Primitives) (registry : RecoveryAttestorRegistry)
    (keyId : String) : Except Raised TrustContext := do
  let attestor ← orRaise (temporalError "untrusted_attestor") (registry.get keyId)
  let status ← registry.status keyId
  ensure (status = .active) "attestor_not_active"
  let history ← registry.history keyId
  let event ← orRaise (temporalError "trust_history_missing") history.getLast?
  ensure (event.body.toStatus = .active) "active_trust_event_missing"
  let eventId ← trustEventId primitives (.text keyId) (eventJson event)
  pure ⟨keyId, attestor.publicKey, eventId, event⟩

/-- The keys of `_integrity_payload`. -/
def integrityFields : List String :=
  ["schema_version", "algorithm", "key_id", "public_key", "trust_event_id", "trust_event",
    "recovery_artifact"]

/-- The keys of `_signature_payload`. -/
def signatureFields : List String := integrityFields ++ ["proof_id"]

def proofFields : List String :=
  ["schema_version", "algorithm", "key_id", "public_key", "trust_event_id", "trust_event",
    "proof_id", "recovery_artifact", "signature"]

/-- The recovery artifact has no defects. -/
def ensureArtifact (primitives : Primitives) (artifact : Json) :
    Except Raised RecoveryArtifact.Verdict :=
  match RecoveryArtifact.verifyArtifact primitives.artifacts artifact with
  | .ok verdict => .ok verdict
  | .error defect => .error (temporalError ("recovery_artifact_invalid:" ++ defect.error))

/-- `_validate_shape`, which answers what it found out about the artifact. -/
def validateShape (primitives : Primitives) (proof : Json) :
    Except Raised RecoveryArtifact.Verdict := do
  ensure (proof.isObject = true) "proof_object_required"
  ensureFields proof proofFields "proof_field_missing"
  ensure ((proof.get "schema_version").text? = some schemaVersion) "unsupported_proof_schema"
  ensure ((proof.get "algorithm").text? = some algorithm) "unsupported_proof_algorithm"
  ensure ((proof.get "trust_event").isObject = true) "trust_event_required"
  let expected ← trustEventId primitives (proof.get "key_id") (proof.get "trust_event")
  ensure ((proof.get "trust_event_id").text? = some expected) "trust_event_id_mismatch"
  ensure ((proof.get "recovery_artifact").isObject = true) "recovery_artifact_required"
  ensureArtifact primitives (proof.get "recovery_artifact")

/-- A signer with the payload interface. -/
structure PayloadSigner where
  keyId : String
  publicKey : String
  signPayload : Json → Bytes

/-- The fields of a proof before it is signed. -/
def unsignedProof (signer : PayloadSigner) (context : TrustContext) (artifact : Json)
    (proofId : String) : List (String × Json) :=
  [("schema_version", .text schemaVersion),
    ("algorithm", .text algorithm),
    ("key_id", .text signer.keyId),
    ("public_key", .text signer.publicKey),
    ("trust_event_id", .text context.eventId),
    ("trust_event", eventJson context.event),
    ("proof_id", .text proofId),
    ("recovery_artifact", artifact)]

def signedProof (primitives : Primitives) (signer : PayloadSigner) (context : TrustContext)
    (artifact : Json) : Json :=
  let proofId := primitives.canonicalHash
    (project (.object (unsignedProof signer context artifact "")) integrityFields)
  let unsigned := unsignedProof signer context artifact proofId
  let signature := signer.signPayload (project (.object unsigned) signatureFields)
  .object (unsigned ++ [("signature", .text (primitives.encodeBase64 signature))])

/-- `sign_temporal_recovery_proof`. -/
def signTemporalRecoveryProof (primitives : Primitives) (artifact : Json)
    (signer : PayloadSigner) (registry : RecoveryAttestorRegistry) : Except Raised Json := do
  ensure (artifact.isObject = true) "recovery_artifact_required"
  let _ ← ensureArtifact primitives artifact
  let context ← currentTrustContext primitives registry signer.keyId
  ensure (context.publicKey = signer.publicKey) "attestor_key_mismatch"
  pure (signedProof primitives signer context artifact)

/-- `==` of a recorded value, which is null or text, and a decoded one. -/
def sameValue : Json → Json → Bool
  | .null, .null => true
  | .text left, .text right => left = right
  | _, _ => false

/-- `event == trust_event` for an event of the registry. -/
def sameEvent (event : TrustEvent) (trustEvent : Json) : Bool :=
  trustEvent.isObject && trustEvent.keys.all (fun field => field ∈ eventFields) &&
    eventFields.all fun field =>
      (trustEvent.get? field).any (sameValue ((eventJson event).get field))

/-- The history holds the active trust event of the proof. -/
def holdsTrustEvent (primitives : Primitives) (proof : Json) (history : List TrustEvent) :
    Bool :=
  history.any fun event =>
    event.body.toStatus = .active &&
      ((trustEventId primitives (proof.get "key_id") (eventJson event)).toOption ==
        (proof.get "trust_event_id").text?) &&
      sameEvent event (proof.get "trust_event")

/-- The registry knows the signer and has recorded its trust event. -/
def ensureTrusted (primitives : Primitives) (proof : Json)
    (registry : RecoveryAttestorRegistry) : Except Raised PUnit := do
  let entry ← orRaise (temporalError "untrusted_attestor")
    ((proof.get "key_id").text?.bind registry.entries)
  ensure ((proof.get "public_key").text? = some entry.attestor.publicKey)
    "attestor_key_mismatch"
  ensure (holdsTrustEvent primitives proof entry.history = true)
    "historical_trust_event_not_found"

/-- What `verify_temporal_recovery_proof` answers. -/
structure VerifiedProof where
  proofId : Json
  keyId : Json
  algorithm : Json
  trustEventId : Json
  trustStatus : Json
  recoveryId : Json
  attemptId : Json
  events : ℕ
  headHash : String

def verifiedProof (proof : Json) (verdict : RecoveryArtifact.Verdict) : VerifiedProof where
  proofId := proof.get "proof_id"
  keyId := proof.get "key_id"
  algorithm := proof.get "algorithm"
  trustEventId := proof.get "trust_event_id"
  trustStatus := (proof.get "trust_event").get "to_status"
  recoveryId := (proof.get "recovery_artifact").get "recovery_id"
  attemptId := (proof.get "recovery_artifact").get "attempt_id"
  events := verdict.events
  headHash := verdict.headHash

/-- `verify_temporal_recovery_proof`. -/
def verifyTemporalRecoveryProof (primitives : Primitives) (proof : Json)
    (trustedAttestors : Option RecoveryAttestorRegistry) : Except Raised VerifiedProof := do
  let verdict ← validateShape primitives proof
  ensure ((proof.get "proof_id").text? =
    some (primitives.canonicalHash (project proof integrityFields))) "proof_id_mismatch"
  let publicRaw ← decode primitives (proof.get "public_key") "public_key"
  ensure (publicRaw.length = 32) "invalid_ed25519_public_key"
  ensure ((proof.get "key_id").text? = some (keyIdOf primitives.toPrimitives publicRaw))
    "key_id_public_key_mismatch"
  let signature ← decode primitives (proof.get "signature") "signature"
  ensure (signature.length = 64) "invalid_ed25519_signature"
  ensure (primitives.signatureValid publicRaw signature (project proof signatureFields) = true)
    "proof_signature_invalid"
  match trustedAttestors with
  | none => pure ⟨⟩
  | some registry => ensureTrusted primitives proof registry
  pure (verifiedProof proof verdict)

/-! ## Proofs of a correct signer -/

variable {primitives : Primitives}

/-- Signatures have 64 bytes, survive their encoding and verify. -/
structure SignsCorrectly (primitives : Primitives) (signer : PayloadSigner) : Prop where
  length : ∀ payload, (signer.signPayload payload).length = 64
  encoded : ∀ payload, primitives.decodeBase64
    (primitives.encodeBase64 (signer.signPayload payload)) = some (signer.signPayload payload)
  valid : ∀ payload raw, primitives.decodeBase64 signer.publicKey = some raw →
    primitives.signatureValid raw (signer.signPayload payload) payload = true

theorem ensure_bind_eq_ok {condition : Prop} [Decidable condition] {message : String}
    {A : Type} {rest : PUnit → Except Raised A} {value : A}
    (hok : ensure condition message >>= rest = .ok value) : condition ∧ rest ⟨⟩ = .ok value :=
  raiseUnless_bind_eq_ok hok

theorem ensure_bind_eq_ok_iff {condition : Prop} [Decidable condition] {message : String}
    {A : Type} {rest : PUnit → Except Raised A} {value : A} :
    (ensure condition message >>= rest) = .ok value ↔ condition ∧ rest ⟨⟩ = .ok value :=
  raiseUnless_bind_eq_ok_iff

/-- The context of a proof names an active event of the registry's history. -/
theorem currentTrustContext_eq_ok {registry : RecoveryAttestorRegistry} {keyId : String}
    {context : TrustContext}
    (hcontext : currentTrustContext primitives registry keyId = .ok context) :
    ∃ entry, registry.entries keyId = some entry ∧
      context.publicKey = entry.attestor.publicKey ∧ context.event ∈ entry.history ∧
        context.event.body.toStatus = .active ∧
          trustEventId primitives (.text keyId) (eventJson context.event) =
            .ok context.eventId := by
  obtain ⟨attestor, hattestor, hstatus⟩ := orRaise_bind_eq_ok hcontext
  obtain ⟨entry, hentry, rfl⟩ := Option.map_eq_some_iff.mp hattestor
  obtain ⟨status, -, hactive⟩ := bind_eq_ok hstatus
  obtain ⟨-, hhistory⟩ := ensure_bind_eq_ok hactive
  obtain ⟨history, hheld, hlast⟩ := bind_eq_ok hhistory
  obtain ⟨event, hevent, hactivated⟩ := orRaise_bind_eq_ok hlast
  obtain ⟨hto, hidentified⟩ := ensure_bind_eq_ok hactivated
  obtain ⟨eventId, heventId, hanswer⟩ := bind_eq_ok hidentified
  obtain rfl := Except.ok.inj hanswer
  have hsame : entry.history = history := by
    rw [RecoveryAttestorRegistry.history, RecoveryAttestorRegistry.entry, hentry] at hheld
    exact Except.ok.inj hheld
  subst hsame
  exact ⟨entry, hentry, rfl, List.mem_of_getLast? hevent, hto, heventId⟩

theorem signTemporalRecoveryProof_eq_ok {artifact proof : Json} {signer : PayloadSigner}
    {registry : RecoveryAttestorRegistry}
    (hsigned : signTemporalRecoveryProof primitives artifact signer registry = .ok proof) :
    ∃ context verdict, proof = signedProof primitives signer context artifact ∧
      artifact.isObject = true ∧ ensureArtifact primitives artifact = .ok verdict ∧
        currentTrustContext primitives registry signer.keyId = .ok context ∧
          context.publicKey = signer.publicKey := by
  obtain ⟨hobject, hchecked⟩ := ensure_bind_eq_ok hsigned
  obtain ⟨verdict, hverdict, hcontexted⟩ := bind_eq_ok hchecked
  obtain ⟨context, hcontext, hmatched⟩ := bind_eq_ok hcontexted
  obtain ⟨hkey, hanswer⟩ := ensure_bind_eq_ok hmatched
  exact ⟨context, verdict, (Except.ok.inj hanswer).symm, hobject, hverdict, hcontext, hkey⟩

theorem sameEvent_eventJson (event : TrustEvent) : sameEvent event (eventJson event) = true := by
  obtain ⟨⟨fromStatus, toStatus, occurredAt, reason⟩, previous, hash⟩ := event
  cases fromStatus <;>
    simp [sameEvent, eventJson, StatusChange.body, Json.isObject, Json.keys, eventFields,
      Json.get?, Json.get, sameValue, List.lookup_cons, List.lookup_nil]

/-- A proof is trusted by every registry whose history holds its trust event. -/
theorem ensureTrusted_signedProof {signer : PayloadSigner} {context : TrustContext}
    {artifact : Json} {registry : RecoveryAttestorRegistry} {entry : Entry}
    (hentry : registry.entries signer.keyId = some entry)
    (hkey : entry.attestor.publicKey = signer.publicKey)
    (hactive : context.event.body.toStatus = .active)
    (heventId : trustEventId primitives (.text signer.keyId) (eventJson context.event) =
      .ok context.eventId)
    (hevent : context.event ∈ entry.history) :
    ensureTrusted primitives (signedProof primitives signer context artifact) registry =
      .ok ⟨⟩ := by
  have hholds : holdsTrustEvent primitives (signedProof primitives signer context artifact)
      entry.history = true := by
    rw [holdsTrustEvent, List.any_eq_true]
    refine ⟨context.event, hevent, ?_⟩
    have hid : (signedProof primitives signer context artifact).get "key_id" =
        .text signer.keyId := rfl
    have heventJson : (signedProof primitives signer context artifact).get "trust_event" =
        eventJson context.event := rfl
    have hnamed : (signedProof primitives signer context artifact).get "trust_event_id" =
        .text context.eventId := rfl
    rw [hid, heventJson, hnamed, heventId, sameEvent_eventJson]
    simp [hactive, Except.toOption, Json.text?]
  rw [ensureTrusted, orRaise_bind_eq_ok_iff]
  refine ⟨entry, hentry, ?_⟩
  rw [ensure_bind_eq_ok_iff]
  refine ⟨congrArg some hkey.symm, ?_⟩
  rw [ensure, raiseUnless, if_pos hholds]

theorem validateShape_signedProof {signer : PayloadSigner} {context : TrustContext}
    {artifact : Json} {verdict : RecoveryArtifact.Verdict} (hobject : artifact.isObject = true)
    (hverdict : ensureArtifact primitives artifact = .ok verdict)
    (heventId : trustEventId primitives (.text signer.keyId) (eventJson context.event) =
      .ok context.eventId) :
    validateShape primitives (signedProof primitives signer context artifact) =
      .ok verdict := by
  have hid : (signedProof primitives signer context artifact).get "key_id" =
      .text signer.keyId := rfl
  have hevent : (signedProof primitives signer context artifact).get "trust_event" =
      eventJson context.event := rfl
  have hartifact : (signedProof primitives signer context artifact).get "recovery_artifact" =
      artifact := rfl
  rw [validateShape, ensure_bind_eq_ok_iff]
  refine ⟨rfl, ?_⟩
  rw [bind_eq_ok_iff]
  refine ⟨⟨⟩, rfl, ?_⟩
  rw [ensure_bind_eq_ok_iff]
  refine ⟨rfl, ?_⟩
  rw [ensure_bind_eq_ok_iff]
  refine ⟨rfl, ?_⟩
  rw [ensure_bind_eq_ok_iff, hevent]
  refine ⟨rfl, ?_⟩
  rw [bind_eq_ok_iff, hid]
  refine ⟨context.eventId, heventId, ?_⟩
  rw [ensure_bind_eq_ok_iff]
  refine ⟨rfl, ?_⟩
  rw [ensure_bind_eq_ok_iff, hartifact]
  exact ⟨hobject, hverdict⟩

/-- A signed proof verifies wherever its trust event is trusted. -/
theorem verify_signedProof {signer : PayloadSigner} {context : TrustContext}
    {artifact : Json} {registry : RecoveryAttestorRegistry}
    {verdict : RecoveryArtifact.Verdict} (hsigns : SignsCorrectly primitives signer)
    (hkey : checkKey primitives.toPrimitives signer.keyId signer.publicKey = .ok ⟨⟩)
    (hshape : validateShape primitives (signedProof primitives signer context artifact) =
      .ok verdict)
    (htrusted : ensureTrusted primitives (signedProof primitives signer context artifact)
      registry = .ok ⟨⟩) :
    verifyTemporalRecoveryProof primitives (signedProof primitives signer context artifact)
      (some registry) =
        .ok (verifiedProof (signedProof primitives signer context artifact) verdict) := by
  obtain ⟨raw, hraw, hchecked⟩ := orRaise_bind_eq_ok hkey
  obtain ⟨hlength, hmatches⟩ := check_bind_eq_ok hchecked
  have hkeyId : signer.keyId = keyIdOf primitives.toPrimitives raw := raiseUnless_eq_ok hmatches
  let payload := project (signedProof primitives signer context artifact) signatureFields
  have hsignature : decode primitives
      ((signedProof primitives signer context artifact).get "signature") "signature" =
        .ok (signer.signPayload payload) := by
    have hencoded := hsigns.encoded payload
    change orRaise _ (primitives.decodeBase64
      (primitives.encodeBase64 (signer.signPayload payload))) = _
    rw [hencoded]
    rfl
  rw [verifyTemporalRecoveryProof, bind_eq_ok_iff]
  refine ⟨verdict, hshape, ?_⟩
  rw [ensure_bind_eq_ok_iff]
  refine ⟨rfl, ?_⟩
  rw [bind_eq_ok_iff]
  refine ⟨raw, by rw [decode]; exact congrArg (orRaise _) hraw, ?_⟩
  rw [ensure_bind_eq_ok_iff]
  refine ⟨hlength, ?_⟩
  rw [ensure_bind_eq_ok_iff]
  refine ⟨congrArg some hkeyId, ?_⟩
  rw [hsignature, bind_eq_ok_iff]
  refine ⟨signer.signPayload payload, rfl, ?_⟩
  rw [ensure_bind_eq_ok_iff]
  refine ⟨hsigns.length payload, ?_⟩
  rw [ensure_bind_eq_ok_iff]
  refine ⟨hsigns.valid payload raw hraw, ?_⟩
  rw [bind_eq_ok_iff]
  exact ⟨⟨⟩, htrusted, rfl⟩

end AegisForge.Shared.RecoveryTemporal
