import AegisForge.Shared.AttestorRegistry

/-!
# Experiment dossiers

A dossier is the unsigned description of an experiment run.  Its validation
fixes the schema field by field; it proves nothing about the run.
-/

namespace AegisForge.Shared.ExperimentDossier

open AegisForge.Core
open AttestorRegistry (Bytes itemsOf isArray)

/-- The primitives that come from outside. -/
structure Primitives where
  /-- `canonical_json`: ASCII JSON with sorted keys, of strict JSON values only. -/
  canonicalJson : Json → Option String
  /-- SHA-256 in hexadecimal. -/
  sha256 : Bytes → String
  /-- `datetime.fromisoformat` of a text with a time zone, with `Z` for UTC. -/
  fromIsoFormat : String → Option Time

def schemaVersion : String := "evm-key-forensics-experiment-dossier-v1"

def dossierError (message : String) : Raised := ⟨.experimentDossierError, message⟩

/-- `text.encode("utf-8")`. -/
def utf8 (text : String) : Bytes := text.toUTF8.toList

def topFields : List String :=
  ["schema_version", "experiment_id", "run_id", "nonce", "source", "fixture", "command",
    "harness", "runner", "execution", "result_sha256", "artifacts", "safety"]

/-- `_object`. -/
def checkObject (value : Json) (field : String) (expected : List String) :
    Except Raised PUnit :=
  if value.isObject = false then .error (dossierError (field ++ "_must_be_object"))
  else
    match value.missing expected, sorted (value.keys.filter fun key => key ∉ expected) with
    | some missing, _ => .error (dossierError (field ++ "_fields_missing:" ++ missing))
    | none, [] => .ok ⟨⟩
    | none, extra => .error (dossierError (field ++ "_fields_unknown:" ++ ",".intercalate extra))

/-- `_text`. -/
def checkText (value : Json) (field : String) : Except Raised String := do
  let text ← orRaise (dossierError (field ++ "_required")) value.filledText?
  raiseUnless (text = strip text) (dossierError (field ++ "_surrounding_whitespace"))
  pure text

def isLowerHex (character : Char) : Bool :=
  ('0' ≤ character && character ≤ '9') || ('a' ≤ character && character ≤ 'f')

/-- `_SHA256.fullmatch`. -/
def isSha256 (text : String) : Bool := text.length = 64 && text.toList.all isLowerHex

/-- `_REVISION.fullmatch`. -/
def isRevision (text : String) : Bool :=
  40 ≤ text.length && text.length ≤ 64 && text.toList.all isLowerHex

/-- `_digest`. -/
def checkDigest (value : Json) (field : String) : Except Raised String :=
  orRaise (dossierError (field ++ "_invalid_sha256")) (value.text?.filter isSha256)

/-- `_timestamp`. -/
def checkTimestamp (primitives : Primitives) (value : Json) (field : String) :
    Except Raised Time := do
  let text ← checkText value field
  orRaise (dossierError (field ++ "_invalid_timestamp")) (primitives.fromIsoFormat text)

def isInteger : Json → Bool
  | .int _ => true
  | _ => false

def isBoolean : Json → Bool
  | .bool _ => true
  | _ => false

/-- A list of texts that is not empty. -/
def isArgv : Json → Bool
  | .array items => !items.isEmpty && items.all fun item => item.text?.isSome
  | _ => false

/-- `dossier_sha256` and the digest of the command line. -/
def canonicalDigest (primitives : Primitives) (value : Json) : Except Raised String := do
  let text ← orRaise (dossierError "dossier_not_canonicalizable")
    (primitives.canonicalJson value)
  pure (primitives.sha256 (utf8 text))

def isLetter (character : Char) : Bool :=
  ('A' ≤ character && character ≤ 'Z') || ('a' ≤ character && character ≤ 'z')

/-- The name starts with a drive letter and a colon. -/
def hasDrive (name : String) : Bool :=
  match name.toList with
  | letter :: colon :: _ => isLetter letter && colon = ':'
  | _ => false

/-- A relative path in normal form. -/
def isArtifactPath (name : String) : Bool :=
  !name.toList.contains '\\' && !name.toList.contains (Char.ofNat 0) &&
    name.toList.head? ≠ some '/' && !hasDrive name &&
      (name.toList.splitOn '/').all fun part =>
        part ≠ [] && part ≠ ['.'] && part ≠ ['.', '.']

/-- The loop over the artifacts, with the names seen so far. -/
def checkArtifacts : ℕ → List String → List Json → Except Raised PUnit
  | _, _, [] => .ok ⟨⟩
  | index, seen, artifact :: rest => do
      let field := "artifact_" ++ toString index
      checkObject artifact field ["name", "sha256"]
      let name ← checkText (artifact.get "name") (field ++ "_name")
      raiseUnless (isArtifactPath name = true) (dossierError "artifact_path_invalid")
      raiseUnless (name ∉ seen) (dossierError "duplicate_artifact_name")
      let _ ← checkDigest (artifact.get "sha256") (field ++ "_sha256")
      checkArtifacts (index + 1) (name :: seen) rest

def checkSource (source : Json) : Except Raised PUnit := do
  checkObject source "source" ["repository", "revision"]
  let _ ← checkText (source.get "repository") "source_repository"
  raiseUnless ((source.get "revision").text?.any isRevision = true)
    (dossierError "source_revision_must_be_full_git_object_id")

def checkFixture (fixture : Json) : Except Raised PUnit := do
  checkObject fixture "fixture" ["fixture_id", "sha256"]
  let _ ← checkText (fixture.get "fixture_id") "fixture_id"
  let _ ← checkDigest (fixture.get "sha256") "fixture_sha256"

def checkCommand (primitives : Primitives) (command : Json) : Except Raised PUnit := do
  checkObject command "command" ["argv", "argv_sha256"]
  raiseUnless (isArgv (command.get "argv") = true)
    (dossierError "command_argv_must_be_nonempty_string_list")
  let expected ← canonicalDigest primitives (command.get "argv")
  let digest ← checkDigest (command.get "argv_sha256") "command_argv_sha256"
  raiseUnless (digest = expected) (dossierError "command_argv_digest_mismatch")

def checkHarness (harness : Json) : Except Raised PUnit := do
  checkObject harness "harness" ["harness_sha256", "build_recipe_sha256"]
  let _ ← checkDigest (harness.get "harness_sha256") "harness_sha256"
  let _ ← checkDigest (harness.get "build_recipe_sha256") "build_recipe_sha256"

/-- The checks of the runner, which answer its provider. -/
def checkRunner (runner : Json) : Except Raised String := do
  checkObject runner "runner" ["provider_id", "runner_id", "image_digest"]
  let providerId ← checkText (runner.get "provider_id") "provider_id"
  let _ ← checkText (runner.get "runner_id") "runner_id"
  if (runner.get "image_digest").isNull = false then
    let _ ← checkDigest (runner.get "image_digest") "runner_image_digest"
  pure providerId

def checkExecution (primitives : Primitives) (execution : Json) : Except Raised PUnit := do
  checkObject execution "execution"
    ["started_at", "completed_at", "exit_code", "timed_out", "test_passed"]
  let started ← checkTimestamp primitives (execution.get "started_at") "execution_started_at"
  let completed ←
    checkTimestamp primitives (execution.get "completed_at") "execution_completed_at"
  raiseUnless (started ≤ completed) (dossierError "execution_time_order_invalid")
  raiseUnless (isInteger (execution.get "exit_code") = true)
    (dossierError "execution_exit_code_must_be_integer")
  raiseUnless (isBoolean (execution.get "timed_out") = true)
    (dossierError "execution_timed_out_must_be_boolean")
  raiseUnless (isBoolean (execution.get "test_passed") = true)
    (dossierError "execution_test_passed_must_be_boolean")

def checkSafety (safety : Json) : Except Raised PUnit := do
  checkObject safety "safety"
    ["scope", "historical_code_executed", "real_key_material_handled"]
  let scope ← orRaise (dossierError "unsafe_or_unknown_experiment_scope")
    ((safety.get "scope").text?.filter (· ∈ ["synthetic_only", "source_inspection_only"]))
  raiseUnless (isBoolean (safety.get "historical_code_executed") = true)
    (dossierError "safety_historical_code_executed_must_be_boolean")
  raiseUnless (isBoolean (safety.get "real_key_material_handled") = true)
    (dossierError "safety_real_key_material_handled_must_be_boolean")
  raiseUnless (¬(scope = "source_inspection_only" ∧
      (safety.get "historical_code_executed").isTruthy = true))
    (dossierError "source_inspection_scope_conflicts_with_execution_claim")
  raiseUnless (¬(scope = "synthetic_only" ∧
      (safety.get "real_key_material_handled").isTruthy = true))
    (dossierError "synthetic_scope_conflicts_with_key_material_claim")

/-- What `validate_experiment_dossier` answers, with the nonce and the provider,
which it has checked to be texts. -/
structure DossierSummary where
  experimentId : String
  runId : String
  nonce : String
  providerId : String
  artifactCount : ℕ
  dossierSha256 : String

/-- `validate_experiment_dossier`. -/
def validateExperimentDossier (primitives : Primitives) (dossier : Json) :
    Except Raised DossierSummary := do
  checkObject dossier "dossier" topFields
  raiseUnless ((dossier.get "schema_version").text? = some schemaVersion)
    (dossierError "unsupported_dossier_schema")
  let experimentId ← checkText (dossier.get "experiment_id") "experiment_id"
  let runId ← checkText (dossier.get "run_id") "run_id"
  let nonce ← checkText (dossier.get "nonce") "nonce"
  checkSource (dossier.get "source")
  checkFixture (dossier.get "fixture")
  checkCommand primitives (dossier.get "command")
  checkHarness (dossier.get "harness")
  let providerId ← checkRunner (dossier.get "runner")
  checkExecution primitives (dossier.get "execution")
  let _ ← checkDigest (dossier.get "result_sha256") "result_sha256"
  raiseUnless (isArray (dossier.get "artifacts") = true)
    (dossierError "artifacts_must_be_list")
  checkArtifacts 0 [] (itemsOf (dossier.get "artifacts"))
  checkSafety (dossier.get "safety")
  let digest ← canonicalDigest primitives dossier
  pure {
    experimentId := experimentId
    runId := runId
    nonce := nonce
    providerId := providerId
    artifactCount := (itemsOf (dossier.get "artifacts")).length
    dossierSha256 := digest }

/-! ## What was checked -/

variable {primitives : Primitives}

theorem checkText_eq_ok {value : Json} {field text : String}
    (hchecked : checkText value field = .ok text) : value = .text text := by
  obtain ⟨found, hfound, hstripped⟩ := orRaise_bind_eq_ok hchecked
  obtain ⟨-, hanswer⟩ := raiseUnless_bind_eq_ok hstripped
  obtain rfl := Except.ok.inj hanswer
  exact (Json.text_of_filledText? hfound).1

theorem checkText_filled {value : Json} {field text : String}
    (hchecked : checkText value field = .ok text) : isBlank text = false := by
  obtain ⟨found, hfound, hstripped⟩ := orRaise_bind_eq_ok hchecked
  obtain ⟨-, hanswer⟩ := raiseUnless_bind_eq_ok hstripped
  obtain rfl := Except.ok.inj hanswer
  exact (Json.text_of_filledText? hfound).2

theorem checkDigest_eq_ok {value : Json} {field digest : String}
    (hchecked : checkDigest value field = .ok digest) : value = .text digest := by
  have hfiltered := orRaise_eq_ok hchecked
  exact Json.text?_eq_some_iff.mp (Option.filter_eq_some_iff.mp hfiltered).1

/-- The checks that a valid dossier has passed. -/
structure IsValid (primitives : Primitives) (dossier : Json) (summary : DossierSummary) :
    Prop where
  experimentId :
    checkText (dossier.get "experiment_id") "experiment_id" = .ok summary.experimentId
  runId : checkText (dossier.get "run_id") "run_id" = .ok summary.runId
  nonce : checkText (dossier.get "nonce") "nonce" = .ok summary.nonce
  source : checkSource (dossier.get "source") = .ok ⟨⟩
  fixture : checkFixture (dossier.get "fixture") = .ok ⟨⟩
  command : checkCommand primitives (dossier.get "command") = .ok ⟨⟩
  harness : checkHarness (dossier.get "harness") = .ok ⟨⟩
  runner : checkRunner (dossier.get "runner") = .ok summary.providerId
  execution : checkExecution primitives (dossier.get "execution") = .ok ⟨⟩
  result : ∃ digest, checkDigest (dossier.get "result_sha256") "result_sha256" = .ok digest
  artifacts : checkArtifacts 0 [] (itemsOf (dossier.get "artifacts")) = .ok ⟨⟩
  safety : checkSafety (dossier.get "safety") = .ok ⟨⟩

theorem isValid_of_validateExperimentDossier {dossier : Json} {summary : DossierSummary}
    (hvalid : validateExperimentDossier primitives dossier = .ok summary) :
    IsValid primitives dossier summary := by
  obtain ⟨_, -, hschema⟩ := bind_eq_ok hvalid
  obtain ⟨-, hexperiment⟩ := raiseUnless_bind_eq_ok hschema
  obtain ⟨experimentId, hexperimentId, hrun⟩ := bind_eq_ok hexperiment
  obtain ⟨runId, hrunId, hnonced⟩ := bind_eq_ok hrun
  obtain ⟨nonce, hnonce, hsourced⟩ := bind_eq_ok hnonced
  obtain ⟨_, hsource, hfixtured⟩ := bind_eq_ok hsourced
  obtain ⟨_, hfixture, hcommanded⟩ := bind_eq_ok hfixtured
  obtain ⟨_, hcommand, hharnessed⟩ := bind_eq_ok hcommanded
  obtain ⟨_, hharness, hrunning⟩ := bind_eq_ok hharnessed
  obtain ⟨providerId, hrunner, hexecuted⟩ := bind_eq_ok hrunning
  obtain ⟨_, hexecution, hresulted⟩ := bind_eq_ok hexecuted
  obtain ⟨digest, hresult, hlisted⟩ := bind_eq_ok hresulted
  obtain ⟨-, hlooped⟩ := raiseUnless_bind_eq_ok hlisted
  obtain ⟨_, hartifacts, hguarded⟩ := bind_eq_ok hlooped
  obtain ⟨_, hsafety, hdigested⟩ := bind_eq_ok hguarded
  obtain ⟨_, -, hanswer⟩ := bind_eq_ok hdigested
  obtain rfl := Except.ok.inj hanswer
  exact ⟨hexperimentId, hrunId, hnonce, hsource, hfixture, hcommand, hharness, hrunner,
    hexecution, ⟨digest, hresult⟩, hartifacts, hsafety⟩

/-- What a valid runner states: its provider and itself by texts, an image by a
digest or by `null`. -/
theorem checkRunner_eq_ok {runner : Json} {providerId : String}
    (hchecked : checkRunner runner = .ok providerId) :
    checkText (runner.get "provider_id") "provider_id" = .ok providerId ∧
      (∃ runnerId, runner.get "runner_id" = .text runnerId) ∧
        (runner.get "image_digest" = .null ∨
          ∃ digest, runner.get "image_digest" = .text digest) := by
  obtain ⟨_, -, hnamed⟩ := bind_eq_ok hchecked
  obtain ⟨name, hname, hidentified⟩ := bind_eq_ok hnamed
  obtain ⟨runnerId, hrunnerId, himage⟩ := bind_eq_ok hidentified
  have hrunner : ∃ runnerId, runner.get "runner_id" = .text runnerId :=
    ⟨runnerId, checkText_eq_ok hrunnerId⟩
  by_cases hnull : (runner.get "image_digest").isNull = true
  · rw [if_neg (by simp [hnull])] at himage
    obtain rfl := Except.ok.inj himage
    have hisNull : runner.get "image_digest" = .null := by
      cases himageValue : runner.get "image_digest" <;> rw [himageValue] at hnull <;>
        first | rfl | cases hnull
    exact ⟨hname, hrunner, Or.inl hisNull⟩
  · rw [if_pos (by simpa using hnull)] at himage
    obtain ⟨digest, hdigest, hanswer⟩ := bind_eq_ok himage
    obtain rfl := Except.ok.inj hanswer
    exact ⟨hname, hrunner, Or.inr ⟨digest, checkDigest_eq_ok hdigest⟩⟩

/-- A valid dossier names its run, its nonce and its provider by texts. -/
theorem validateExperimentDossier_eq_ok {dossier : Json} {summary : DossierSummary}
    (hvalid : validateExperimentDossier primitives dossier = .ok summary) :
    dossier.get "run_id" = .text summary.runId ∧ dossier.get "nonce" = .text summary.nonce ∧
      (dossier.get "runner").get "provider_id" = .text summary.providerId ∧
        isBlank summary.providerId = false := by
  have hchecks := isValid_of_validateExperimentDossier hvalid
  have hprovider := (checkRunner_eq_ok hchecks.runner).1
  exact ⟨checkText_eq_ok hchecks.runId, checkText_eq_ok hchecks.nonce,
    checkText_eq_ok hprovider, checkText_filled hprovider⟩

end AegisForge.Shared.ExperimentDossier
