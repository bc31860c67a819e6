import AegisForge.Core.IsoTime
import AegisForge.Core.JsonDecoded
import AegisForge.Core.Publication
import AegisForge.Core.StrictJson
import AegisForge.Shared.CaseBinding
import AegisForge.Shared.SignedCheckpoint

/-!
# The attestation workflow

A verdict on the evidence of a run is signed, registered and checkpointed.  Nothing is
written before everything was verified, and then five files are created.
-/

namespace AegisForge.Shared.AttestationWorkflow

open AegisForge.Core AegisForge.Core.Publication
open Attestation (ArtifactRoot Primitives TrustedKey)
open AttestationRegistry (registryError)

def maxEvidenceBytes : ℕ := 1024 * 1024

def maxRegistryBytes : ℕ := 16 * 1024 * 1024

/-- `SUPPORTED_RUNNERS`. -/
def supportedRunners : List (String × String) :=
  [("aegisforge-solidity-round-run-v1", "tools.evm_key_forensics.run_solidity_round_case"),
    ("aegisforge-uniswap-v2-factory-round-run-v1",
      "tools.evm_key_forensics.run_uniswap_v2_factory_round_case")]

def workflowVerdicts : List String := ["INCONCLUSIVE", "OUT_OF_SCOPE"]

def outputFiles : List String :=
  ["attestation.json", "registry.json", "checkpoint.json", "inclusion-proof.json",
    "workflow-summary.json"]

def valueError (message : String) : Raised := ⟨.valueError, message⟩

/-- `SignerClientError`. -/
def signerClientError (message : String) : Raised := ⟨.runtimeError, message⟩

/-! ## The system -/

/-- What stands at a path. -/
inductive Node
  | file (content : Octets)
  | directory
  | symlink
  deriving DecidableEq

/-- A path as the names that lead to it. -/
abbrev Location := List String

abbrev Tree := Files Location Node

/-- What goes wrong while a file is created. -/
inductive CreationFault
  /-- Nothing is created. -/
  | before (raised : Raised)
  /-- The file is there, with a part of its content. -/
  | during (written : Octets) (raised : Raised)

/-- The signer service, as the client sees it. -/
structure Signer where
  secret : String
  /-- The address is plain HTTP to the loopback interface. -/
  isLoopback : Bool
  /-- The port of the address is a number in its range. -/
  hasPort : Bool
  /-- The status and the body of an answer, or nothing where the service is unavailable. -/
  exchange : String → Octets → Option (ℕ × Octets)

/-- What a run works with, apart from the files. -/
structure System (PrivateKey : Type) where
  primitives : Primitives PrivateKey
  signer : Signer
  /-- `str(value)` of what is no text. -/
  str : Json → String
  /-- What reading a path raises, where the operating system refuses it. -/
  refusal : Location → Option Raised
  artifactRoot : Tree → Location → ArtifactRoot
  creationFault : Location → Option CreationFault

/-- The arguments of `run_attestation_workflow`. -/
structure Request where
  evidencePath : Location
  verdict : String
  rationale : String
  trustedKeysPath : Location
  outputDir : Location
  previousRegistryPath : Option Location

/-! ## The signer client -/

def maxRequestBytes : ℕ := 256 * 1024

def maxResponseBytes : ℕ := 512 * 1024

/-- The object that an answer contains under its name and its id. -/
def expectedObjectOf (decoded : Json) (name : String) : Option Json :=
  if decoded.isObject = true ∧ (decoded.get name).isObject = true ∧
      (decoded.get (name ++ "_id")).text?.isSome = true ∧
      (decoded.get name).get (name ++ "_id") = decoded.get (name ++ "_id") then
    some (decoded.get name)
  else none

section Client

variable {PrivateKey : Type} (system : System PrivateKey)

/-- `str(value)`. -/
def textOf (value : Json) : String := value.text?.getD (system.str value)

/-- The code of an answer that is no success. -/
def rejectionCode (decoded : Json) : String :=
  textOf system ((decoded.get? "error").getD (.text "request_rejected"))

/-- `_post_signer_request`. -/
def postSignerRequest (endpoint : String) (payload : Json) (expectedObject : String) :
    Except Raised Json := do
  let signer := system.signer
  raiseUnless (32 ≤ signer.secret.length)
    (signerClientError "signer_token_missing_or_too_short")
  raiseUnless (payload.isObject = true) (signerClientError "signer_payload_must_be_object")
  raiseUnless (signer.isLoopback = true)
    (signerClientError "signer_url_must_be_plain_http_loopback")
  raiseUnless (signer.hasPort = true)
    (signerClientError "signer_payload_not_json_serializable")
  let body ← orRaise (signerClientError "signer_payload_not_json_serializable")
    payload.canonicalText?
  raiseUnless ((utf8 body).length ≤ maxRequestBytes)
    (signerClientError "signer_payload_too_large")
  let answer ← orRaise (signerClientError "signer_service_unavailable")
    (signer.exchange endpoint (utf8 body))
  raiseUnless (answer.2.length ≤ maxResponseBytes)
    (signerClientError "signer_response_too_large")
  let decoded ← orRaise (signerClientError "signer_returned_invalid_json")
    ((decodeUtf8? answer.2).bind Json.loads)
  raiseUnless (answer.1 = 200)
    (signerClientError s!"signer_request_rejected:{answer.1}:{(rejectionCode system decoded).take 100}")
  orRaise (signerClientError "signer_response_contract_invalid")
    (expectedObjectOf decoded expectedObject)

/-- `request_attestation`. -/
def requestAttestation (payload : Json) : Except Raised Json :=
  postSignerRequest system "/v1/attest" payload "attestation"

/-- `request_registry_checkpoint`. -/
def requestRegistryCheckpoint (registry : Json) : Except Raised Json := do
  let payload ← AttestationRegistry.checkpointRequestForRegistry system.primitives.sha256 registry
  postSignerRequest system "/v1/registry-checkpoint" payload "checkpoint"

end Client

/-! ## Inputs -/

section Inputs

variable {PrivateKey : Type} (system : System PrivateKey) (tree : Tree)

/-- What the strict decoder says of a value that it rejects. -/
def decodingError (reason : String) : Raised :=
  if "duplicate_json_key".toList.isPrefixOf reason.toList = true then
    valueError "duplicate_json_key"
  else valueError reason

/-- The text of a file as a value. -/
def decodeStrict (raw : Octets) : Except Raised Json := do
  let written ← orRaise (valueError "invalid_json_file") ((decodeUtf8? raw).bind Json.readAll)
  match written.irregularity? with
  | some reason => .error (decodingError reason)
  | none => pure written.sortKeys

/-- The content of a regular file that is no symbolic link. -/
def readFile (path : Location) : Except Raised Octets :=
  match system.refusal path, tree path with
  | some raised, _ => .error raised
  | none, some (.file content) => .ok content
  | none, _ => .error (valueError "input_path_must_be_regular_non_symlink_file")

/-- `_load_json`. -/
def loadJson (path : Location) (maxBytes : ℕ) : Except Raised (Json × Octets) := do
  let raw ← readFile system tree path
  raiseUnless (raw.length ≤ maxBytes) (valueError "json_file_size_limit_exceeded")
  let value ← decodeStrict raw
  pure (value, raw)

/-- The fields of a dictionary. -/
def fieldsOf : Json → List (String × Json)
  | .object fields => fields
  | _ => []

/-- `_load_trusted_keys`. -/
def loadTrustedKeys (path : Location) : Except Raised Json := do
  let (keys, _) ← loadJson system tree path maxEvidenceBytes
  raiseUnless (keys.isObject = true ∧ fieldsOf keys ≠ [] ∧
      ∀ field ∈ fieldsOf keys, isBlank field.1 = false ∧ field.2.text?.isSome = true)
    (valueError "trusted_keys_must_be_nonempty_key_id_to_base64_public_key_object")
  pure keys

/-- The trusted key of a name. -/
def trustedKey (keys : Json) (keyId : String) : Option TrustedKey :=
  ((keys.get? keyId).bind Json.text?).map TrustedKey.text

/-- `value.replace("Z", "+00:00")`, decoded. -/
def readTimestamp (value : String) : Option DateTime :=
  DateTime.fromisoformat (value.toList.flatMap fun character =>
    if character = 'Z' then "+00:00".toList else [character])

/-- `_timestamp`, with the time. -/
def timestamp (value : Json) (label : String) : Except Raised (String × DateTime) := do
  let text ← orRaise (valueError (label ++ "_missing")) (value.text?.filter (· ≠ ""))
  let time ← orRaise (valueError (label ++ "_invalid")) (readTimestamp text)
  pure (text, time)

/-- `completed < started`, for which both times need an offset or neither of them has one. -/
def isBefore (completed started : DateTime) : Except Raised Bool := do
  raiseUnless (completed.offset.isSome = started.offset.isSome)
    (⟨.typeError, "can't compare offset-naive and offset-aware datetimes"⟩ : Raised)
  pure (decide (completed.instant < started.instant))

def stageHistory : List String :=
  ["source_research", "analysis", "synthetic_experiment", "validation", "human_review"]

/-- The safety flags that have to be false. -/
def unsafeFlags : List String :=
  ["network_access", "rpc_used", "transactions_sent", "private_keys_loaded",
    "automatic_confirmation", "finding_created"]

def isTrue (value : Json) : Bool :=
  match value with
  | .bool value => value
  | _ => false

def isFalse (value : Json) : Bool :=
  match value with
  | .bool value => !value
  | _ => false

/-- The result of the research that the evidence contains. -/
def checkResult (result : Json) : Except Raised PUnit := do
  raiseUnless (result.get "final_status" = .text "INCONCLUSIVE")
    (valueError "research_result_must_remain_INCONCLUSIVE")
  raiseUnless (result.get "stage_history" = .array (stageHistory.map Json.text))
    (valueError "evidence_stage_history_invalid")
  let validation := result.get "validation"
  let checks := validation.get "checks"
  let observation := result.get "source_observation"
  let analysis := result.get "solidity_analysis"
  raiseUnless (validation.get "status" = .text "VALIDATED")
    (valueError "research_validation_not_passed")
  raiseUnless (fieldsOf checks ≠ [] ∧ ∀ field ∈ fieldsOf checks, isTrue field.2 = true)
    (valueError "research_validation_checks_incomplete")
  raiseUnless (observation.get "conclusion" = .text "SOURCE_PATTERN_MATCHED")
    (valueError "source_observation_not_supported")
  raiseUnless (isTrue (analysis.get "source_supported") = true)
    (valueError "analysis_not_source_supported")
  raiseUnless (isFalse (analysis.get "finding_created") = true)
    (valueError "finding_creation_not_prohibited")

/-- The evidence as `_prepare_inputs` requires it, with the module of its runner. -/
def checkEvidence (evidence : Json) (verdict rationale : String) : Except Raised String := do
  raiseUnless (evidence.isObject = true)
    (⟨.attributeError, s!"'{typeName evidence}' object has no attribute 'get'"⟩ : Raised)
  let schema := evidence.get "schema_version"
  raiseUnless (schema.isHashable = true)
    (⟨.typeError, s!"unhashable type: '{typeName schema}'"⟩ : Raised)
  let runner ← orRaise (valueError "unsupported_evidence_runner_schema")
    (schema.text?.bind fun schema => supportedRunners.lookup schema)
  raiseUnless (verdict ∈ workflowVerdicts)
    (valueError "source_only_workflow_verdict_must_be_INCONCLUSIVE_or_OUT_OF_SCOPE")
  raiseUnless (isBlank rationale = false) (valueError "human_verdict_rationale_required")
  raiseUnless ((utf8 rationale.toList).length ≤ 8192)
    (valueError "human_verdict_rationale_too_long")
  let acceptance := evidence.get "acceptance"
  let safety := evidence.get "safety"
  raiseUnless (acceptance.isObject = true ∧ safety.isObject = true ∧
      (evidence.get "target").isObject = true ∧ (evidence.get "round").isObject = true ∧
      (evidence.get "result").isObject = true)
    (valueError "evidence_result_structure_invalid")
  raiseUnless (isTrue (acceptance.get "validation_passed") = true ∧
      acceptance.get "final_status" = .text "INCONCLUSIVE")
    (valueError "evidence_must_be_validated_and_remain_INCONCLUSIVE")
  raiseUnless ((∀ flag ∈ unsafeFlags, isFalse (safety.get flag) = true) ∧
      isTrue (safety.get "human_review_required") = true)
    (valueError "evidence_safety_invariants_missing_or_unsafe")
  checkResult (evidence.get "result")
  let target := evidence.get "target"
  raiseUnless (target.get "commit" ≠ .null ∧ target.get "path" ≠ .null ∧
      target.get "expected_git_blob_sha1" ≠ .null)
    (valueError "target_pin_incomplete")
  pure runner

/-- The first value that is a true condition. -/
def firstTruthy : List Json → Json → Json
  | [], last => last
  | value :: rest, last => if value.isTruthy = true then value else firstTruthy rest last

/-- What is signed about a run whose evidence was checked. -/
def inputsJson (evidence case : Json) (evidenceRaw : Octets) (evidenceName runner caseDigest
    startedAt completedAt verdict rationale contractSha256 : String) : Json :=
  let target := evidence.get "target"
  let analysis := (evidence.get "result").get "solidity_analysis"
  let question := textOf system (firstTruthy [analysis.get "question", case.get "hypothesis"]
    (.text "Pinned source observation"))
  .object [
    ("case_ref", .object [
      ("case_digest", .text caseDigest),
      ("case_id", case.get "case_id"),
      ("scope_digest", case.get "scope_digest"),
      ("scope_url", case.get "scope_url"),
      ("target_commit", case.get "target_commit"),
      ("target_repository", case.get "target_repository")]),
    ("finding_ref", .object [
      ("affected_component", .text (textOf system
        (firstTruthy [target.get "contract_address"] (target.get "path")))),
      ("claim", .text ("Source-only observation: " ++ question ++
        " No vulnerability finding or runtime exploitability is asserted.")),
      ("finding_id", .text ("source-observation-" ++ textOf system (case.get "case_id"))),
      ("impact_path",
        .text "not-established; source-only observation; no vulnerability finding"),
      ("source_locations", .array [.object [
        ("git_blob_sha1", target.get "expected_git_blob_sha1"),
        ("path", target.get "path")]])]),
    ("reproduction", .object [
      ("artifacts", .array [.object [
        ("path", .text evidenceName),
        ("sha256", .text (system.primitives.sha256 evidenceRaw).text),
        ("size_bytes", .int evidenceRaw.length)]]),
      ("commands", .array [.array [.text "python", .text "-m", .text runner]]),
      ("completed_at", .text completedAt),
      ("environment", .object [
        ("evidence_schema", evidence.get "schema_version"),
        ("evm_executed", .bool false),
        ("execution_mode", .text "local"),
        ("rpc_used", .bool false),
        ("solidity_compiled", .bool false),
        ("source_revision", target.get "commit")]),
      ("exit_code", .int 0),
      ("network_access", .bool false),
      ("reproduction_contract_sha256", .text contractSha256),
      ("started_at", .text startedAt)]),
    ("verdict", .text verdict),
    ("verdict_rationale", .text (strip rationale))]

/-- `_prepare_inputs`. -/
def prepareInputs (evidence : Json) (evidenceRaw : Octets) (evidenceName verdict
    rationale : String) : Except Raised Json := do
  let runner ← checkEvidence evidence verdict rationale
  let target := evidence.get "target"
  let binding := (evidence.get "result").get "research_case_binding"
  let case ← verifyResearchCaseBinding binding
  let mismatch := valueError "research_case_binding_does_not_match_target"
  raiseUnless ((case.get "target_commit").equal (target.get "commit") = true ∧
    (case.get "target_repository").equal (target.get "repository") = true) mismatch
  let caseDigest ← orRaise mismatch
    ((binding.get "case_digest").text?.filter fun digest => digest.length = 64)
  let (startedAt, started) ← timestamp (evidence.get "run_started_at") "run_started_at"
  let (completedAt, completed) ← timestamp (evidence.get "run_completed_at") "run_completed_at"
  let backwards ← isBefore completed started
  raiseUnless (backwards = false) (valueError "run_timestamps_out_of_order")
  let contract := Json.object [("acceptance", evidence.get "acceptance"),
    ("case_digest", .text caseDigest), ("round", evidence.get "round"),
    ("safety", evidence.get "safety"), ("schema_version", evidence.get "schema_version"),
    ("target", target)]
  let text ← orRaise (Attestation.attestationError "value_not_canonical_json_serializable")
    contract.canonicalText?
  pure (inputsJson system evidence case evidenceRaw evidenceName runner caseDigest startedAt
    completedAt verdict rationale (Attestation.sha256Hex system.primitives text).text)

end Inputs

/-! ## What is published -/

section Workflow

variable {PrivateKey : Type} (system : System PrivateKey) (tree : Tree) (request : Request)

def statusText : Attestation.Status → String
  | .valid => "VALID"
  | .invalid => "INVALID"
  | .tampered => "TAMPERED"
  | .untrusted => "UNTRUSTED"
  | .incomplete => "INCOMPLETE"

/-- The values that a run publishes, and what it verified them with. -/
structure Published where
  trusted : Json
  caseDigest : Json
  attestation : Json
  previous : Option Json
  registry : Json
  checkpoint : Json
  checkpointId : Digest
  proof : Json

/-- The output directory is there, and none of the outputs. -/
def checkOutputs : Except Raised PUnit := do
  raiseUnless (tree request.outputDir = some .directory)
    (valueError "output_dir_must_be_existing_non_symlink_directory")
  match outputFiles.find? fun name => (tree (request.outputDir ++ [name])).isSome with
  | some name => .error (valueError ("refusing_to_overwrite_workflow_output:" ++ name))
  | none => pure ⟨⟩

/-- The attestation that the signer answers, when it is valid. -/
def signedAttestation (inputs trusted : Json) : Except Raised Json := do
  let attestation ← requestAttestation system inputs
  let verification := Attestation.settled (Attestation.verifyPayload system.primitives attestation
    (trustedKey trusted) ((inputs.get "case_ref").get "case_digest").text?
    (some (system.artifactRoot tree request.evidencePath.dropLast)))
  raiseUnless (verification.status = .valid)
    (valueError ("signed_attestation_verification_failed:" ++ statusText verification.status))
  pure attestation

/-- The registry that is continued, with its checkpoint. -/
def previousRegistry : Except Raised (Option (Json × Json)) :=
  match request.previousRegistryPath with
  | none => pure none
  | some path => do
      let (previous, _) ← loadJson system tree path maxRegistryBytes
      let checkpoint ← AttestationRegistry.checkpointFor system.primitives.sha256 previous
      pure (some (previous, checkpoint))

/-- The registry with the entry of the attestation. -/
def extendedRegistry (attestation : Json) (previous : Option (Json × Json)) :
    Except Raised Json := do
  let sha256 := system.primitives.sha256
  let entries := previous.elim [] fun found =>
    AttestationRegistry.itemsOf (found.1.get "entries")
  let entry ← AttestationRegistry.entryFromAttestation sha256 attestation
  raiseUnless (∀ item ∈ entries, item.get "attestation_id" ≠ entry.get "attestation_id")
    (registryError "duplicate_attestation_id")
  let registry ← AttestationRegistry.buildRegistry sha256 (.array (entries ++ [entry]))
    (previous.elim .null Prod.snd)
  match previous with
  | none => pure registry
  | some (previous, _) => do
      let _ ← AttestationRegistry.verifyRegistryChain sha256 registry previous
      pure registry

/-- `run_attestation_workflow`, before anything is written. -/
def prepare : Except Raised Published := do
  let (evidence, evidenceRaw) ← loadJson system tree request.evidencePath maxEvidenceBytes
  let trusted ← loadTrustedKeys system tree request.trustedKeysPath
  let inputs ← prepareInputs system evidence evidenceRaw (request.evidencePath.getLastD "")
    request.verdict request.rationale
  checkOutputs tree request
  let attestation ← signedAttestation system tree request inputs trusted
  let previous ← previousRegistry system tree request
  let registry ← extendedRegistry system attestation previous
  let checkpoint ← requestRegistryCheckpoint system registry
  let verified ← AttestationRegistry.verifySignedCheckpoint system.primitives checkpoint
    (trustedKey trusted) (some registry)
  let attestationId ← orRaise (registryError "attestation_id_not_found")
    (attestation.get "attestation_id").text?
  let proof ← AttestationRegistry.buildInclusionProof system.primitives.sha256 registry
    attestationId
  -- A proof that is not refused is valid.
  let _ ← AttestationRegistry.verifyInclusionProof system.primitives.sha256 proof
    ((registry.get "merkle_root").text?.getD "") (registry.get "size").int?
  pure {
    trusted
    caseDigest := (inputs.get "case_ref").get "case_digest"
    attestation
    previous := previous.map Prod.fst
    registry
    checkpoint
    checkpointId := verified.checkpointId
    proof }

/-- The summary that is answered. -/
def summary (published : Published) : Json :=
  .object [
    ("attestation_id", published.attestation.get "attestation_id"),
    ("automatic_confirmation", .bool false),
    ("case_digest", published.caseDigest),
    ("checkpoint_id", .text published.checkpointId.text),
    ("finding_created", .bool false),
    ("inclusion_proof_valid", .bool true),
    ("merkle_root", published.registry.get "merkle_root"),
    ("output_files", .array (outputFiles.map Json.text)),
    ("published_remotely", .bool false),
    ("registry_sha256", .text (AttestationRegistry.registrySha256 system.primitives.sha256
      published.registry).text),
    ("registry_size", published.registry.get "size"),
    ("signature_status", .text (statusText .valid)),
    ("status", .text "ATTESTED_AND_REGISTERED_LOCALLY"),
    ("verdict", .text request.verdict)]

/-- The values of the files, by their names. -/
def payloads (published : Published) : List (String × Json) :=
  [("attestation.json", published.attestation), ("registry.json", published.registry),
    ("checkpoint.json", published.checkpoint), ("inclusion-proof.json", published.proof),
    ("workflow-summary.json", summary system request published)]

/-! ## Writing -/

/-- `json.dumps(value, sort_keys=True, indent=2, ensure_ascii=True) + "\n"`. -/
def contentOf (value : Json) : Octets :=
  utf8 (Json.write (.indented 2) true 0 value.sortKeys ++ ['\n'])

/-- `_write_new_json`. -/
def writeNewJson (path : Location) (node : Node) (tree : Tree) : Step Location Node Raised :=
  if tree path = some .symlink then
    (.error (valueError "output_path_must_not_be_symlink"), tree)
  else
    match system.creationFault path with
    | some (.before raised) => (.error raised, tree)
    | fault =>
        -- `os.O_EXCL` refuses a path that is taken.
        if (tree path).isSome = true then
          (.error ⟨.externalError, "[Errno 17] File exists"⟩, tree)
        else
          match fault with
          | some (.during written raised) =>
              (.error raised, unlink path (Function.update tree path (some (.file written))))
          | _ => (.ok ⟨⟩, Function.update tree path (some node))

/-- `run_attestation_workflow`. -/
def runAttestationWorkflow : Except Raised Json × Tree :=
  match prepare system tree request with
  | .error raised => (.error raised, tree)
  | .ok published =>
      let contents := (payloads system request published).map fun payload =>
        (request.outputDir ++ [payload.1], Node.file (contentOf payload.2))
      match publish (writeNewJson system) [] contents tree with
      | (.error raised, after) => (.error raised, after)
      | (.ok _, after) => (.ok (summary system request published), after)

end Workflow

end AegisForge.Shared.AttestationWorkflow
