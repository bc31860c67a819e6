import AegisForge.Core.Checks
import AegisForge.Core.IsoTime
import AegisForge.Core.JsonEquality
import AegisForge.Core.Sha256
import AegisForge.Core.Url
import AegisForge.Shared.Exceptions

/-!
# Research cases

The immutable identity and authorization envelope of an investigation, and the
provenance envelope that a task result carries.  The constructors answer `none`
where the source raises `TypeError` or `ValueError`; their callers catch both.
-/

namespace AegisForge.Shared

open AegisForge.Core

/-! ## Enumerations -/

inductive ExecutionMode
  | «local»
  | authorizedFork
  | testnet
  deriving DecidableEq, Repr

namespace ExecutionMode

def all : List ExecutionMode := [.local, .authorizedFork, .testnet]

def value : ExecutionMode → String
  | .local => "local"
  | .authorizedFork => "authorized_fork"
  | .testnet => "testnet"

/-- `ExecutionMode(text)`. -/
def of? (text : String) : Option ExecutionMode := all.find? fun mode => mode.value = text

@[simp]
theorem of?_value (mode : ExecutionMode) : of? mode.value = some mode := by
  cases mode <;> decide

end ExecutionMode

inductive CaseStatus
  | draft
  | ready
  | running
  | confirmed
  | rejected
  | inconclusive
  | outOfScope
  deriving DecidableEq, Repr

namespace CaseStatus

def all : List CaseStatus :=
  [.draft, .ready, .running, .confirmed, .rejected, .inconclusive, .outOfScope]

def value : CaseStatus → String
  | .draft => "draft"
  | .ready => "ready"
  | .running => "running"
  | .confirmed => "confirmed"
  | .rejected => "rejected"
  | .inconclusive => "inconclusive"
  | .outOfScope => "out_of_scope"

/-- `CaseStatus(text)`. -/
def of? (text : String) : Option CaseStatus := all.find? fun status => status.value = text

@[simp]
theorem of?_value (status : CaseStatus) : of? status.value = some status := by
  cases status <;> decide

/-- The statuses in which a case permits execution. -/
def isRunnable (status : CaseStatus) : Bool := status ∈ [.ready, .running]

end CaseStatus

/-- `ALLOWED_TECHNIQUES`. -/
def allowedTechniqueNames : List String :=
  ["source_pattern", "differential_revision", "symbolic_execution", "fuzzing",
    "formal_verification", "crypto_primitive_analysis", "supply_chain", "runtime_probe"]

/-! ## Fields of decoded records -/

/-- A list of texts. -/
def texts? (value : Json) : Option (List String) :=
  value.array?.bind fun items => items.mapM Json.text?

@[simp]
theorem texts?_array (texts : List String) :
    texts? (.array (texts.map Json.text)) = some texts := by
  have hmap : ∀ texts : List String, (texts.map Json.text).mapM Json.text? = some texts := by
    intro texts
    induction texts with
    | nil => rfl
    | cons text rest ih => simp [List.mapM_cons, Json.text?, ih]
  exact hmap texts

/-- A number that may be left out. -/
def intOr (record : Json) (key : String) (default : ℤ) : Option ℤ :=
  match record.get? key with
  | none => some default
  | some value => value.int?

/-! ## Rounds -/

/-- One bounded round against the pinned revision of the case. -/
structure RoundSpec where
  roundId : String
  technique : String
  hypothesis : String
  expectedEvidenceAtoms : List String
  falsificationCriteria : String
  priority : ℤ
  disclosureDeadlineDays : ℤ
  deriving DecidableEq

namespace RoundSpec

def fieldNames : List String :=
  ["disclosure_deadline_days", "expected_evidence_atoms", "falsification_criteria",
    "hypothesis", "priority", "round_id", "technique"]

def shortDeadlineTechniques : List String :=
  ["source_pattern", "crypto_primitive_analysis", "differential_revision"]

/-- `RoundSpec.__post_init__` does not raise. -/
def isValid (spec : RoundSpec) : Bool :=
  [spec.roundId, spec.technique, spec.hypothesis, spec.falsificationCriteria].all (!isBlank ·) &&
    spec.expectedEvidenceAtoms ≠ [] && spec.expectedEvidenceAtoms.all (!isBlank ·) &&
    7 ≤ spec.disclosureDeadlineDays && spec.disclosureDeadlineDays ≤ 180 &&
    !(spec.technique ∈ shortDeadlineTechniques && 60 < spec.disclosureDeadlineDays)

/-- `asdict(spec)`. -/
def toJson (spec : RoundSpec) : Json :=
  .object [
    ("disclosure_deadline_days", .int spec.disclosureDeadlineDays),
    ("expected_evidence_atoms", .array (spec.expectedEvidenceAtoms.map .text)),
    ("falsification_criteria", .text spec.falsificationCriteria),
    ("hypothesis", .text spec.hypothesis),
    ("priority", .int spec.priority),
    ("round_id", .text spec.roundId),
    ("technique", .text spec.technique)]

/-- `RoundSpec(**item)`. -/
def ofJson? (item : Json) : Option RoundSpec :=
  if (item.isObject && item.keys.all (· ∈ fieldNames)) = true then do
    let roundId ← (item.get "round_id").text?
    let technique ← (item.get "technique").text?
    let hypothesis ← (item.get "hypothesis").text?
    let expectedEvidenceAtoms ← texts? (item.get "expected_evidence_atoms")
    let falsificationCriteria ← (item.get "falsification_criteria").text?
    let priority ← intOr item "priority" 0
    let disclosureDeadlineDays ← intOr item "disclosure_deadline_days" 90
    let spec : RoundSpec := ⟨roundId, technique, hypothesis, expectedEvidenceAtoms,
      falsificationCriteria, priority, disclosureDeadlineDays⟩
    if spec.isValid = true then some spec else none
  else none

/-- A round is read back from its dictionary. -/
theorem ofJson?_toJson {spec : RoundSpec} (hvalid : spec.isValid = true) :
    ofJson? spec.toJson = some spec := by
  have hkeys : (spec.toJson.isObject && spec.toJson.keys.all (· ∈ fieldNames)) = true :=
    rfl
  have hroundId : spec.toJson.get "round_id" = .text spec.roundId := rfl
  have htechnique : spec.toJson.get "technique" = .text spec.technique := rfl
  have hhypothesis : spec.toJson.get "hypothesis" = .text spec.hypothesis := rfl
  have hatoms : spec.toJson.get "expected_evidence_atoms" =
      .array (spec.expectedEvidenceAtoms.map .text) := rfl
  have hcriteria : spec.toJson.get "falsification_criteria" =
      .text spec.falsificationCriteria := rfl
  have hpriority : intOr spec.toJson "priority" 0 = some spec.priority := rfl
  have hdays : intOr spec.toJson "disclosure_deadline_days" 90 =
      some spec.disclosureDeadlineDays := rfl
  rw [ofJson?, if_pos hkeys, hroundId, htechnique, hhypothesis, hatoms, hcriteria, hpriority,
    hdays, texts?_array]
  exact if_pos hvalid

end RoundSpec

/-! ## Cases -/

/-- The fields of a `ResearchCase`. -/
structure CaseFields where
  caseId : String
  targetRepository : String
  targetCommit : String
  scopeUrl : String
  scopeDigest : String
  scopeReviewedOn : String
  hypothesis : String
  attackerCapability : String
  expectedInvariant : String
  falsificationCriteria : String
  executionMode : ExecutionMode
  status : CaseStatus
  allowedTechniques : List String
  rounds : List RoundSpec
  deriving DecidableEq

/-- Hexadecimal digits of either case, `count` of them. -/
def isHexText (count : ℕ) (text : String) : Bool :=
  text.toList.length = count && text.toList.all fun digit => (Json.hexValue? digit).isSome

/-- A character of an owner or of a repository. -/
def isRepositoryChar (character : Char) : Bool :=
  character.isAlphanum || character ∈ ['_', '.', '-']

/-- `re.fullmatch(r"[A-Za-z0-9_.-]+/[A-Za-z0-9_.-]+", text)`. -/
def isOwnerRepository (text : String) : Bool :=
  let owner := text.toList.takeWhile isRepositoryChar
  match text.toList.dropWhile isRepositoryChar with
  | [] => false
  | mark :: repository =>
      owner ≠ [] && mark = '/' && repository ≠ [] && repository.all isRepositoryChar

namespace CaseFields

/-- `ResearchCase.__post_init__` does not raise. -/
def isValid (fields : CaseFields) : Bool :=
  fields.allowedTechniques ≠ [] && fields.allowedTechniques.all (· ∈ allowedTechniqueNames) &&
    fields.rounds.all RoundSpec.isValid && (fields.rounds.map RoundSpec.roundId).Nodup &&
    fields.rounds.all (fun spec => spec.technique ∈ fields.allowedTechniques) &&
    [fields.caseId, fields.targetRepository, fields.scopeUrl, fields.scopeDigest,
      fields.scopeReviewedOn, fields.hypothesis, fields.attackerCapability,
      fields.expectedInvariant, fields.falsificationCriteria].all (!isBlank ·) &&
    (Date.fromisoformat fields.scopeReviewedOn.toList).isSome &&
    isHexText 40 fields.targetCommit && isHexText 64 fields.scopeDigest &&
    Url.isHttps fields.scopeUrl &&
    (isOwnerRepository fields.targetRepository ||
      ("https://".toList.isPrefixOf fields.targetRepository.toList &&
        (Url.urlparse fields.targetRepository).any fun url => url.netloc ≠ []))

def fieldNames : List String :=
  ["allowed_techniques", "attacker_capability", "case_id", "execution_mode",
    "expected_invariant", "falsification_criteria", "hypothesis", "rounds", "scope_digest",
    "scope_reviewed_on", "scope_url", "status", "target_commit", "target_repository"]

/-- `asdict(case)` with the values of its enumerations. -/
def payload (fields : CaseFields) : Json :=
  .object [
    ("allowed_techniques", .array (fields.allowedTechniques.map .text)),
    ("attacker_capability", .text fields.attackerCapability),
    ("case_id", .text fields.caseId),
    ("execution_mode", .text fields.executionMode.value),
    ("expected_invariant", .text fields.expectedInvariant),
    ("falsification_criteria", .text fields.falsificationCriteria),
    ("hypothesis", .text fields.hypothesis),
    ("rounds", .array (fields.rounds.map RoundSpec.toJson)),
    ("scope_digest", .text fields.scopeDigest),
    ("scope_reviewed_on", .text fields.scopeReviewedOn),
    ("scope_url", .text fields.scopeUrl),
    ("status", .text fields.status.value),
    ("target_commit", .text fields.targetCommit),
    ("target_repository", .text fields.targetRepository)]

end CaseFields

/-- A case that its constructor accepted. -/
structure ResearchCase extends CaseFields where
  valid : toCaseFields.isValid = true
  deriving DecidableEq

namespace ResearchCase

def of? (fields : CaseFields) : Option ResearchCase :=
  if hvalid : fields.isValid = true then some ⟨fields, hvalid⟩ else none

@[simp]
theorem of?_toCaseFields (case : ResearchCase) : of? case.toCaseFields = some case :=
  dif_pos case.valid

theorem toCaseFields_of? {fields : CaseFields} {case : ResearchCase}
    (hcase : of? fields = some case) : case.toCaseFields = fields := by
  rw [of?] at hcase
  split at hcase
  case isTrue => exact (congrArg toCaseFields (Option.some.inj hcase)).symm
  case isFalse => cases hcase

/-- `allowed_techniques`, or its default. -/
def techniques? (payload : Json) : Option (List String) :=
  match payload.get? "allowed_techniques" with
  | none => some ["source_pattern"]
  | some value => texts? value

/-- `rounds`, or its default. -/
def rounds? (payload : Json) : Option (List RoundSpec) :=
  match payload.get? "rounds" with
  | none => some []
  | some value => value.array?.bind fun items => items.mapM RoundSpec.ofJson?

/-- `ResearchCase(**payload)` with its enumerations given. -/
def construct (payload : Json) (executionMode : ExecutionMode) (status : CaseStatus) :
    Option ResearchCase :=
  if (payload.keys.all (· ∈ CaseFields.fieldNames)) = true then do
    let caseId ← (payload.get "case_id").text?
    let targetRepository ← (payload.get "target_repository").text?
    let targetCommit ← (payload.get "target_commit").text?
    let scopeUrl ← (payload.get "scope_url").text?
    let scopeDigest ← (payload.get "scope_digest").text?
    let scopeReviewedOn ← (payload.get "scope_reviewed_on").text?
    let hypothesis ← (payload.get "hypothesis").text?
    let attackerCapability ← (payload.get "attacker_capability").text?
    let expectedInvariant ← (payload.get "expected_invariant").text?
    let falsificationCriteria ← (payload.get "falsification_criteria").text?
    let allowedTechniques ← techniques? payload
    let rounds ← rounds? payload
    of? ⟨caseId, targetRepository, targetCommit, scopeUrl, scopeDigest, scopeReviewedOn,
      hypothesis, attackerCapability, expectedInvariant, falsificationCriteria, executionMode,
      status, allowedTechniques, rounds⟩
  else none

/-- A `ResearchCase` from a payload with the texts of its enumerations. -/
def ofPayload? (payload : Json) : Option ResearchCase := do
  let executionMode ← ((payload.get "execution_mode").text?).bind ExecutionMode.of?
  let status ← ((payload.get "status").text?).bind CaseStatus.of?
  construct payload executionMode status

theorem mapM_ofJson?_toJson {rounds : List RoundSpec}
    (hvalid : rounds.all RoundSpec.isValid = true) :
    (rounds.map RoundSpec.toJson).mapM RoundSpec.ofJson? = some rounds := by
  induction rounds with
  | nil => rfl
  | cons spec rest ih =>
      rw [List.all_cons, Bool.and_eq_true] at hvalid
      simp [List.mapM_cons, RoundSpec.ofJson?_toJson hvalid.1, ih hvalid.2]

theorem rounds_isValid (case : ResearchCase) : case.rounds.all RoundSpec.isValid = true := by
  have hvalid := case.valid
  simp only [CaseFields.isValid, Bool.and_eq_true] at hvalid
  tauto

theorem isBlank_caseId (case : ResearchCase) : isBlank case.caseId = false := by
  have hvalid := case.valid
  simp only [CaseFields.isValid, Bool.and_eq_true, List.all_cons, Bool.not_eq_true'] at hvalid
  tauto

/-- A case is read back from its payload. -/
@[simp]
theorem construct_payload (case : ResearchCase) :
    construct case.payload case.executionMode case.status = some case := by
  have hkeys : (case.payload.keys.all (· ∈ CaseFields.fieldNames)) = true := rfl
  have htechniques : techniques? case.payload = some case.allowedTechniques :=
    texts?_array case.allowedTechniques
  have hrounds : rounds? case.payload = some case.rounds :=
    mapM_ofJson?_toJson case.rounds_isValid
  rw [construct, if_pos hkeys, htechniques, hrounds]
  exact of?_toCaseFields case

@[simp]
theorem ofPayload?_payload (case : ResearchCase) : ofPayload? case.payload = some case := by
  have hmode : ((case.payload.get "execution_mode").text?).bind ExecutionMode.of? =
      some case.executionMode := ExecutionMode.of?_value case.executionMode
  have hstatus : ((case.payload.get "status").text?).bind CaseStatus.of? = some case.status :=
    CaseStatus.of?_value case.status
  rw [ofPayload?, hmode, hstatus]
  exact construct_payload case

end ResearchCase

/-! ## Task bindings -/

def caseValidationError (message : String) : Raised := ⟨.caseValidationError, message⟩

/-- `validate_task_binding`. -/
def validateTaskBinding (case : Option ResearchCase) (taskCaseId : Option String) :
    Except Raised ResearchCase := do
  let case ← orRaise (caseValidationError "Task has no research case; execution denied") case
  raiseUnless (taskCaseId = some case.caseId ∧ case.caseId ≠ "")
    (caseValidationError "Task/case identifier mismatch; execution denied")
  raiseUnless (case.status.isRunnable = true) (caseValidationError
    s!"Case status '{case.status.value}' does not permit execution")
  return case

/-- `CASE_REQUIRED_ROLES`. -/
def caseRequiredRoles : List String := ["source_researcher", "crypto_analyst", "lab_runner"]

/-! ## Provenance envelopes -/

def caseBindingSchema : String := "aegisforge-research-case-binding-v1"

/-- `hashlib.sha256(canonical.encode("utf-8"))` of a payload. -/
def caseDigest (payload : Json) : Digest := Sha256.sha256 payload.canonicalBytes

/-- `research_case_binding`. -/
def researchCaseBinding (case : ResearchCase) : Json :=
  .object [
    ("case", case.payload),
    ("case_digest", .text (caseDigest case.payload).text),
    ("case_id", .text case.caseId),
    ("schema_version", .text caseBindingSchema)]

/-- `type(value).__name__`. -/
def typeName : Json → String
  | .null => "NoneType"
  | .bool _ => "bool"
  | .int _ => "int"
  | .float _ => "float"
  | .text _ => "str"
  | .array _ => "list"
  | .object _ => "dict"

/-- `ResearchCase(**payload)` and the values of its enumerations, which may be
left out of the payload. -/
def caseOfBinding (payload : Json) : Except Raised ResearchCase := do
  let invalid := caseValidationError "research_case_binding_payload_invalid"
  let executionMode ← orRaise invalid (match payload.get? "execution_mode" with
    | none => some .local
    | some value => value.text?.bind ExecutionMode.of?)
  match payload.get? "status" with
  | none => orRaise invalid (ResearchCase.construct payload executionMode .ready)
  | some value =>
      match value.text? with
      | some text => do
          let status ← orRaise invalid (CaseStatus.of? text)
          orRaise invalid (ResearchCase.construct payload executionMode status)
      | none => do
          -- the constructor converts texts only, and the value has no `.value`
          let _ ← orRaise invalid (ResearchCase.construct payload executionMode .ready)
          .error ⟨.attributeError, s!"'{typeName value}' object has no attribute 'value'"⟩

/-- `verify_research_case_binding`. -/
def verifyResearchCaseBinding (binding : Json) : Except Raised Json := do
  raiseUnless (binding.get "schema_version" = .text caseBindingSchema)
    (caseValidationError "invalid_research_case_binding_schema")
  let payload := binding.get "case"
  raiseUnless (payload.isObject = true)
    (caseValidationError "research_case_binding_payload_missing")
  raiseUnless ((payload.get "case_id").equal (binding.get "case_id") = true)
    (caseValidationError "research_case_binding_id_mismatch")
  let case ← caseOfBinding payload
  raiseUnless (case.payload.equal payload = true)
    (caseValidationError "research_case_binding_payload_invalid")
  raiseUnless (binding.get "case_digest" = .text (caseDigest payload).text)
    (caseValidationError "research_case_binding_digest_mismatch")
  return payload

end AegisForge.Shared
