import Mathlib.Data.List.Dedup
import AegisForge.Core.Checks
import AegisForge.Core.Json
import AegisForge.Core.Time
import AegisForge.Shared.Exceptions

/-!
# The attestor registry

A registry is a signed list of attestors with the verifiers that each of them
may attest for.  Registries and attestations are untrusted dictionaries; the
keys of trusted issuers are pinned by the caller.
-/

namespace AegisForge.Shared.AttestorRegistry

open AegisForge.Core

abbrev Bytes : Type := List UInt8

/-- The primitives that come from outside. -/
structure Primitives where
  /-- `str` of a value that is not text. -/
  textOf : Json → String
  /-- `base64.b64decode` of ASCII text with the URL-safe alphabet, validated. -/
  decodeBase64 : String → Option Bytes
  /-- SHA-256 in hexadecimal. -/
  sha256 : Bytes → String
  /-- `datetime.fromisoformat` of a text with a time zone, in UTC. -/
  fromIsoFormat : String → Option Time
  /-- Whether an Ed25519 signature by a public key covers the canonical JSON. -/
  signatureValid : Bytes → Bytes → Json → Bool

def schemaVersion : String := "attestor-registry-v1"

def attestationSchema : String := "outcome-attestation-v1"

def algorithm : String := "Ed25519"

def attestorError (message : String) : Raised := ⟨.attestorError, message⟩

/-- `if not condition: raise AttestorError(message)`. -/
def require (condition : Prop) [Decidable condition] (message : String) :
    Except Raised PUnit :=
  raiseUnless condition (attestorError message)

/-- The required fields are there; the error lists those that are missing. -/
def requireFields (payload : Json) (required : List String) (message : String) :
    Except Raised PUnit :=
  match payload.missing required with
  | some absent => .error (attestorError (message ++ ":" ++ absent))
  | none => .ok ⟨⟩

/-- `str(value)`. -/
def str (primitives : Primitives) : Json → String
  | .text value => value
  | value => primitives.textOf value

/-- `_b64`. -/
def b64 (primitives : Primitives) (value : Json) (field : String) : Except Raised Bytes :=
  orRaise (attestorError ("invalid_base64:" ++ field))
    (value.text?.bind primitives.decodeBase64)

/-- `_parse_time`. -/
def parseTime (primitives : Primitives) (value : Json) (field : String) :
    Except Raised Time :=
  orRaise (attestorError ("invalid_timestamp:" ++ field))
    (value.text?.bind primitives.fromIsoFormat)

/-! ## Records -/

structure AttestorRecord where
  attestorId : String
  keyId : String
  publicKey : String
  allowedVerifiers : List String
  status : String
  validFrom : String
  expiresAt : String
  deriving DecidableEq, Repr

/-- A list of texts that are not empty. -/
def verifierNames : Json → Option (List String)
  | .array items =>
      items.mapM fun item => item.text?.filter fun verifier => verifier ≠ ""
  | _ => none

def recordFields : List String :=
  ["attestor_id", "key_id", "public_key", "allowed_verifiers", "status", "valid_from",
    "expires_at"]

/-- `AttestorRecord.from_dict`. -/
def AttestorRecord.fromDict (primitives : Primitives) (payload : Json) :
    Except Raised AttestorRecord := do
  require (payload.isObject = true) "attestor_record_required"
  requireFields payload recordFields "attestor_fields_missing"
  let allowed ← orRaise (attestorError "invalid_allowed_verifiers")
    (verifierNames (payload.get "allowed_verifiers"))
  let raw ← b64 primitives (payload.get "public_key") "public_key"
  require (raw.length = 32) "invalid_ed25519_public_key"
  -- a status that cannot be hashed cannot be looked up in the set
  raiseUnless ((payload.get "status").isHashable = true) ⟨.typeError, "unhashable type"⟩
  require ((payload.get "status").text?.any (· ∈ ["ACTIVE", "SUSPENDED", "REVOKED"]) = true)
    "invalid_attestor_status"
  let start ← parseTime primitives (payload.get "valid_from") "valid_from"
  let finish ← parseTime primitives (payload.get "expires_at") "expires_at"
  require (start < finish) "invalid_attestor_validity"
  pure {
    attestorId := str primitives (payload.get "attestor_id")
    keyId := str primitives (payload.get "key_id")
    publicKey := str primitives (payload.get "public_key")
    allowedVerifiers := sorted allowed.dedup
    status := str primitives (payload.get "status")
    validFrom := str primitives (payload.get "valid_from")
    expiresAt := str primitives (payload.get "expires_at") }

/-- `_active`. -/
def active (primitives : Primitives) (record : AttestorRecord) (now : Time) :
    Except Raised Bool :=
  if record.status ≠ "ACTIVE" then .ok false
  else do
    let start ← parseTime primitives (.text record.validFrom) "valid_from"
    if start ≤ now then do
      let finish ← parseTime primitives (.text record.expiresAt) "expires_at"
      pure (decide (now < finish))
    else pure false

/-! ## Registries -/

def registryFields : List String :=
  ["schema_version", "algorithm", "registry_id", "issuer_key_id", "issuer_public_key",
    "attestors", "signature"]

/-- The fields of a dictionary under their own names. -/
def project (payload : Json) (fields : List String) : Json :=
  .object (fields.map fun field => (field, payload.get field))

def itemsOf : Json → List Json
  | .array items => items
  | _ => []

def isArray : Json → Bool
  | .array _ => true
  | _ => false

/-- The key id that belongs to an issuer's public key. -/
def issuerKeyId (primitives : Primitives) (issuer : Bytes) : String :=
  "registry-" ++ String.ofList ((primitives.sha256 issuer).toList.take 16)

/-- `verify_registry`, where the keys of trusted issuers are pinned by key id. -/
def verifyRegistry (primitives : Primitives) (registry : Json)
    (trustedIssuerPublicKeys : List (String × Bytes)) : Except Raised Unit := do
  require (registry.isObject = true) "registry_required"
  requireFields registry registryFields "registry_fields_missing"
  require (∀ key ∈ registry.keys, key ∈ registryFields) "invalid_registry_fields"
  require ((registry.get "registry_id").filledText?.isSome = true) "registry_id_required"
  require (isArray (registry.get "attestors") = true) "registry_attestors_list_required"
  let keyId ← orRaise (attestorError "issuer_key_id_required")
    ((registry.get "issuer_key_id").text?.filter (· ≠ ""))
  require ((registry.get "schema_version").text? = some schemaVersion ∧
    (registry.get "algorithm").text? = some algorithm) "unsupported_registry_schema_or_algorithm"
  let issuer ← b64 primitives (registry.get "issuer_public_key") "issuer_public_key"
  require (issuer.length = 32) "invalid_registry_public_key"
  require (keyId = issuerKeyId primitives issuer) "registry_issuer_key_id_mismatch"
  require (trustedIssuerPublicKeys ≠ []) "registry_issuer_trust_anchor_required"
  require (trustedIssuerPublicKeys.lookup keyId = some issuer) "registry_issuer_not_trusted"
  let records ← (itemsOf (registry.get "attestors")).mapM (AttestorRecord.fromDict primitives)
  require ((records.map AttestorRecord.attestorId).Nodup) "duplicate_attestor_id"
  let signed := project registry
    ["schema_version", "algorithm", "registry_id", "issuer_key_id", "issuer_public_key",
      "attestors"]
  require (((registry.get "signature").text?.bind primitives.decodeBase64).any
    (fun signature => primitives.signatureValid issuer signature signed) = true)
    "registry_signature_invalid"

/-- The loop of `resolve_attestor` over the records of the registry. -/
def findAttestor (primitives : Primitives) (attestorId verifier : String) (now : Time) :
    List Json → Except Raised AttestorRecord
  | [] => .error (attestorError "attestor_not_found")
  | raw :: rest => do
      let record ← AttestorRecord.fromDict primitives raw
      if record.attestorId ≠ attestorId then findAttestor primitives attestorId verifier now rest
      else do
        let isActive ← active primitives record now
        require (isActive = true) "attestor_not_active"
        require (verifier ∈ record.allowedVerifiers) "verifier_not_authorized_for_attestor"
        pure record

/-- `resolve_attestor`. -/
def resolveAttestor (primitives : Primitives) (registry : Json)
    (attestorId verifier : String) (now : Time)
    (trustedIssuerPublicKeys : List (String × Bytes)) : Except Raised AttestorRecord := do
  verifyRegistry primitives registry trustedIssuerPublicKeys
  findAttestor primitives attestorId verifier now (itemsOf (registry.get "attestors"))

/-! ## Attestations -/

def attestationFields : List String :=
  ["schema_version", "algorithm", "attestor_id", "key_id", "proof_id", "verifier",
    "issued_at", "signature"]

/-- What `verify_attestation` answers. -/
structure VerifiedAttestation where
  attestorId : String
  keyId : String
  proofId : String
  verifier : String
  registryId : Json

/-- A field of an attestation that must be a text and not blank. -/
def filledField (attestation : Json) (field : String) : Except Raised String :=
  orRaise (attestorError ("invalid_attestation_field:" ++ field))
    (attestation.get field).filledText?

/-- `verify_attestation`. -/
def verifyAttestation (primitives : Primitives) (attestation proof registry : Json)
    (now : Time) (trustedIssuerPublicKeys : List (String × Bytes)) :
    Except Raised VerifiedAttestation := do
  require (attestation.isObject = true ∧ proof.isObject = true)
    "attestation_and_proof_required"
  requireFields attestation attestationFields "attestation_fields_missing"
  require (∀ key ∈ attestation.keys, key ∈ attestationFields) "invalid_attestation_fields"
  let attestorId ← filledField attestation "attestor_id"
  let keyId ← filledField attestation "key_id"
  let proofId ← filledField attestation "proof_id"
  let verifier ← filledField attestation "verifier"
  let expectedProofId ← orRaise (attestorError "proof_id_required")
    (proof.get "proof_id").filledText?
  require ((attestation.get "schema_version").text? = some attestationSchema ∧
    (attestation.get "algorithm").text? = some algorithm)
    "unsupported_attestation_schema_or_algorithm"
  require (proofId = expectedProofId) "attestation_proof_mismatch"
  let record ← resolveAttestor primitives registry attestorId verifier now
    trustedIssuerPublicKeys
  require (record.keyId = keyId) "attestor_key_id_mismatch"
  let issued ← parseTime primitives (attestation.get "issued_at") "issued_at"
  let start ← parseTime primitives (.text record.validFrom) "valid_from"
  require (start ≤ issued) "attestation_outside_attestor_validity"
  let finish ← parseTime primitives (.text record.expiresAt) "expires_at"
  require (issued < finish) "attestation_outside_attestor_validity"
  let signed := project attestation
    ["schema_version", "algorithm", "attestor_id", "key_id", "proof_id", "verifier",
      "issued_at"]
  require (((attestation.get "signature").text?.bind primitives.decodeBase64).any
    (fun signature => (primitives.decodeBase64 record.publicKey).any fun key =>
      primitives.signatureValid key signature signed) = true)
    "attestation_signature_invalid"
  pure {
    attestorId := record.attestorId
    keyId := record.keyId
    proofId := expectedProofId
    verifier := verifier
    registryId := registry.get "registry_id" }

/-! ## What was checked -/

variable {primitives : Primitives}

theorem require_bind_eq_ok {condition : Prop} [Decidable condition] {message : String}
    {A : Type} {rest : PUnit → Except Raised A} {value : A}
    (hok : require condition message >>= rest = .ok value) :
    condition ∧ rest ⟨⟩ = .ok value :=
  raiseUnless_bind_eq_ok hok

theorem AttestorRecord.fromDict_eq_ok {payload : Json} {record : AttestorRecord}
    (hrecord : AttestorRecord.fromDict primitives payload = .ok record) :
    record.attestorId = str primitives (payload.get "attestor_id") ∧
      ∃ allowed, verifierNames (payload.get "allowed_verifiers") = some allowed ∧
        ∀ verifier, verifier ∈ record.allowedVerifiers ↔ verifier ∈ allowed := by
  obtain ⟨-, hfields⟩ := require_bind_eq_ok hrecord
  obtain ⟨_, -, hnames⟩ := bind_eq_ok hfields
  obtain ⟨allowed, hallowed, hkey⟩ := orRaise_bind_eq_ok hnames
  obtain ⟨raw, -, hlength⟩ := bind_eq_ok hkey
  obtain ⟨-, hhashable⟩ := require_bind_eq_ok hlength
  obtain ⟨-, hstatus⟩ := raiseUnless_bind_eq_ok hhashable
  obtain ⟨-, hstart⟩ := require_bind_eq_ok hstatus
  obtain ⟨start, -, hfinish⟩ := bind_eq_ok hstart
  obtain ⟨finish, -, hvalidity⟩ := bind_eq_ok hfinish
  obtain ⟨-, hbuilt⟩ := require_bind_eq_ok hvalidity
  obtain rfl := Except.ok.inj hbuilt
  refine ⟨rfl, allowed, hallowed, fun verifier => ?_⟩
  rw [mem_sorted, List.mem_dedup]

theorem findAttestor_eq_ok {attestorId verifier : String} {now : Time} {items : List Json}
    {record : AttestorRecord}
    (hfound : findAttestor primitives attestorId verifier now items = .ok record) :
    ∃ raw ∈ items, AttestorRecord.fromDict primitives raw = .ok record ∧
      record.attestorId = attestorId ∧ verifier ∈ record.allowedVerifiers := by
  induction items with
  | nil => cases hfound
  | cons raw rest ih =>
      obtain ⟨candidate, hcandidate, hcompare⟩ := bind_eq_ok hfound
      split at hcompare
      case isTrue =>
        obtain ⟨other, hother, hrecord⟩ := ih hcompare
        exact ⟨other, List.mem_cons_of_mem _ hother, hrecord⟩
      case isFalse hsame =>
        obtain ⟨isActive, -, hactive⟩ := bind_eq_ok hcompare
        obtain ⟨-, hauthorized⟩ := require_bind_eq_ok hactive
        obtain ⟨hverifier, hanswer⟩ := require_bind_eq_ok hauthorized
        obtain rfl := Except.ok.inj hanswer
        exact ⟨raw, List.mem_cons_self, hcandidate, not_not.mp hsame, hverifier⟩

/-- The attestor that an attestation names may attest for the verifier. -/
def Authorizes (primitives : Primitives) (registry attestation : Json) (verifier : String) :
    Prop :=
  ∃ record ∈ itemsOf (registry.get "attestors"), ∃ allowed,
    attestation.get "attestor_id" = .text (str primitives (record.get "attestor_id")) ∧
      verifierNames (record.get "allowed_verifiers") = some allowed ∧ verifier ∈ allowed

theorem filledField_eq_ok {attestation : Json} {field text : String}
    (hfield : filledField attestation field = .ok text) :
    attestation.get field = .text text :=
  (Json.text_of_filledText? (orRaise_eq_ok hfield)).1

theorem resolveAttestor_eq_ok {registry attestation : Json} {attestorId verifier : String}
    {now : Time} {keys : List (String × Bytes)} {record : AttestorRecord}
    (hnamed : attestation.get "attestor_id" = .text attestorId)
    (hresolved : resolveAttestor primitives registry attestorId verifier now keys =
      .ok record) :
    registry.isObject = true ∧ Authorizes primitives registry attestation verifier := by
  obtain ⟨_, hregistry, hfind⟩ := bind_eq_ok hresolved
  refine ⟨(require_bind_eq_ok hregistry).1, ?_⟩
  obtain ⟨raw, hraw, hrecord, hid, hverifier⟩ := findAttestor_eq_ok hfind
  obtain ⟨hattestor, allowed, hallowed, hiff⟩ := AttestorRecord.fromDict_eq_ok hrecord
  refine ⟨raw, hraw, allowed, ?_, hallowed, (hiff verifier).mp hverifier⟩
  rw [hnamed, ← hattestor, hid]

/-- An attestation that verifies names a verifier that its attestor may attest for. -/
theorem verifyAttestation_eq_ok {attestation proof registry : Json} {now : Time}
    {keys : List (String × Bytes)} {result : VerifiedAttestation}
    (hverified : verifyAttestation primitives attestation proof registry now keys =
      .ok result) :
    attestation.isObject = true ∧ registry.isObject = true ∧
      (proof.get "proof_id").isTruthy = true ∧
        ∃ verifier, attestation.get "verifier" = .text verifier ∧
          Authorizes primitives registry attestation verifier := by
  obtain ⟨⟨hattestation, -⟩, hfields⟩ := require_bind_eq_ok hverified
  obtain ⟨_, -, hextra⟩ := bind_eq_ok hfields
  obtain ⟨-, hattestor⟩ := require_bind_eq_ok hextra
  obtain ⟨attestorId, hattestorId, hkey⟩ := bind_eq_ok hattestor
  obtain ⟨keyId, -, hproof⟩ := bind_eq_ok hkey
  obtain ⟨proofId, -, hnames⟩ := bind_eq_ok hproof
  obtain ⟨verifier, hverifier, hexpected⟩ := bind_eq_ok hnames
  obtain ⟨expected, hfilled, hschema⟩ := orRaise_bind_eq_ok hexpected
  obtain ⟨-, hmatch⟩ := require_bind_eq_ok hschema
  obtain ⟨-, hresolve⟩ := require_bind_eq_ok hmatch
  obtain ⟨record, hrecord, -⟩ := bind_eq_ok hresolve
  obtain ⟨hregistry, hauthorizes⟩ :=
    resolveAttestor_eq_ok (filledField_eq_ok hattestorId) hrecord
  exact ⟨hattestation, hregistry, Json.isTruthy_of_filledText? hfilled, verifier,
    filledField_eq_ok hverifier, hauthorizes⟩

end AegisForge.Shared.AttestorRegistry
