import AegisForge.Shared.LabExecutionReceipt

/-!
# Attestations of independent runners

A signed receipt attests a dossier when the two state the same inputs, the same
execution and the same artifacts.
-/

namespace AegisForge.Shared.IndependentRunnerAttestation

open AegisForge.Core
open AttestorRegistry (Bytes itemsOf)

/-- The primitives that come from outside. -/
structure Primitives where
  dossiers : ExperimentDossier.Primitives
  receipts : LabExecutionReceipt.Primitives
  /-- `==` of two decoded values. -/
  equal : Json → Json → Bool

def attestationError (message : String) : Raised :=
  ⟨.independentRunnerAttestationError, message⟩

/-- `except (...) as exc: raise IndependentRunnerAttestationError(str(exc))`. -/
def wrapped {A : Type} : Except Raised A → Except Raised A
  | .ok value => .ok value
  | .error error => .error (attestationError error.message)

/-- The inputs that the receipt must state. -/
def expectedInputs (dossier : Json) : List (String × Json) :=
  [("source_repository", (dossier.get "source").get "repository"),
    ("source_revision", (dossier.get "source").get "revision"),
    ("fixture_id", (dossier.get "fixture").get "fixture_id"),
    ("fixture_sha256", (dossier.get "fixture").get "sha256"),
    ("argv", (dossier.get "command").get "argv"),
    ("argv_sha256", (dossier.get "command").get "argv_sha256"),
    ("harness_sha256", (dossier.get "harness").get "harness_sha256"),
    ("build_recipe_sha256", (dossier.get "harness").get "build_recipe_sha256"),
    ("provider_id", (dossier.get "runner").get "provider_id"),
    ("runner_id", (dossier.get "runner").get "runner_id"),
    ("image_digest", (dossier.get "runner").get "image_digest"),
    ("nonce", dossier.get "nonce"),
    ("safety", dossier.get "safety")]

/-- The execution that the receipt must state. -/
def expectedExecution (dossier : Json) : List (String × Json) :=
  [("started_at", (dossier.get "execution").get "started_at"),
    ("completed_at", (dossier.get "execution").get "completed_at"),
    ("exit_code", (dossier.get "execution").get "exit_code"),
    ("timed_out", (dossier.get "execution").get "timed_out"),
    ("test_passed", (dossier.get "execution").get "test_passed"),
    ("result_sha256", dossier.get "result_sha256")]

/-- The artifacts that the receipt must state. -/
def expectedArtifacts (dossier : Json) : Json :=
  .array ((itemsOf (dossier.get "artifacts")).map fun item =>
    .object [("name", item.get "name"), ("sha256", item.get "sha256")])

/-- The keys of the dictionary are those expected. -/
def sameKeys (value : Json) (expected : List String) : Bool :=
  value.keys.all (· ∈ expected) && expected.all (· ∈ value.keys)

/-- The dictionary states what is expected, field by field. -/
def checkStated (primitives : Primitives) (stated : Json) (expected : List (String × Json))
    (fieldsMessage valueMessage : String) : Except Raised PUnit := do
  raiseUnless (sameKeys stated (expected.map Prod.fst) = true) (attestationError fieldsMessage)
  match expected.find? fun field => !primitives.equal (stated.get field.1) field.2 with
  | some field => .error (attestationError (valueMessage ++ ":" ++ field.1))
  | none => .ok ⟨⟩

/-- What `verify_independent_runner_attestation` answers, with what it has
checked of the dossier. -/
structure VerifiedAttestation where
  keyId : String
  receiptSha256 : String
  dossier : ExperimentDossier.DossierSummary

/-- `verify_independent_runner_attestation`. -/
def verifyIndependentRunnerAttestation (primitives : Primitives) (dossier envelope : Json)
    (trustedPublicKeys : String → Option Bytes) : Except Raised VerifiedAttestation := do
  let summary ←
    wrapped (ExperimentDossier.validateExperimentDossier primitives.dossiers dossier)
  let verified ← wrapped
    (LabExecutionReceipt.verifySignedReceipt primitives.receipts envelope trustedPublicKeys)
  let receipt := envelope.get "receipt"
  checkStated primitives (receipt.get "inputs") (expectedInputs dossier)
    "attested_input_fields_mismatch" "attested_input_mismatch"
  raiseUnless (primitives.equal (receipt.get "run_id") (dossier.get "run_id") = true)
    (attestationError "attested_run_id_mismatch")
  raiseUnless (primitives.equal (receipt.get "experiment_id") (dossier.get "experiment_id") =
    true) (attestationError "attested_experiment_id_mismatch")
  checkStated primitives (receipt.get "execution") (expectedExecution dossier)
    "attested_execution_fields_mismatch" "attested_execution_mismatch"
  raiseUnless (sameKeys (receipt.get "artifacts") ["items"] = true ∧
    primitives.equal ((receipt.get "artifacts").get "items") (expectedArtifacts dossier) = true)
    (attestationError "attested_artifacts_mismatch")
  pure ⟨verified.keyId, verified.receiptSha256, summary⟩

/-! ## What was checked -/

variable {primitives : Primitives} {dossier envelope : Json} {verified : VerifiedAttestation}

theorem wrapped_eq_ok {A : Type} {result : Except Raised A} {value : A}
    (hok : wrapped result = .ok value) : result = .ok value := by
  cases result with
  | ok found => exact congrArg Except.ok (Except.ok.inj hok)
  | error error => cases hok

/-- The dictionary has the expected keys, with equal values. -/
def States (primitives : Primitives) (stated : Json) (expected : List (String × Json)) : Prop :=
  sameKeys stated (expected.map Prod.fst) = true ∧
    ∀ field ∈ expected, primitives.equal (stated.get field.1) field.2 = true

theorem states_of_checkStated {stated : Json} {expected : List (String × Json)}
    {fieldsMessage valueMessage : String} {answer : PUnit}
    (hchecked : checkStated primitives stated expected fieldsMessage valueMessage =
      .ok answer) : States primitives stated expected := by
  obtain ⟨hkeys, hvalues⟩ := raiseUnless_bind_eq_ok hchecked
  refine ⟨hkeys, ?_⟩
  split at hvalues
  case h_1 => cases hvalues
  case h_2 hnone =>
    intro field hfield
    simpa using List.find?_eq_none.mp hnone field hfield

/-- What an attestation has passed when it verifies. -/
structure IsVerified (primitives : Primitives) (dossier envelope : Json)
    (trusted : String → Option Bytes) (verified : VerifiedAttestation) : Prop where
  dossierValid :
    ExperimentDossier.validateExperimentDossier primitives.dossiers dossier = .ok verified.dossier
  signed : ∃ receipt, LabExecutionReceipt.verifySignedReceipt primitives.receipts envelope
    trusted = .ok receipt ∧ receipt.keyId = verified.keyId
  inputs : States primitives ((envelope.get "receipt").get "inputs") (expectedInputs dossier)
  execution :
    States primitives ((envelope.get "receipt").get "execution") (expectedExecution dossier)
  artifacts : States primitives ((envelope.get "receipt").get "artifacts")
    [("items", expectedArtifacts dossier)]

theorem isVerified_of_verify {trusted : String → Option Bytes}
    (hverified : verifyIndependentRunnerAttestation primitives dossier envelope trusted =
      .ok verified) : IsVerified primitives dossier envelope trusted verified := by
  obtain ⟨summary, hsummary, hreceipt⟩ := bind_eq_ok hverified
  obtain ⟨receipt, hsigned, hstated⟩ := bind_eq_ok hreceipt
  obtain ⟨_, hinputs, hrun⟩ := bind_eq_ok hstated
  obtain ⟨-, hexperiment⟩ := raiseUnless_bind_eq_ok hrun
  obtain ⟨-, hexecuted⟩ := raiseUnless_bind_eq_ok hexperiment
  obtain ⟨_, hexecution, hlisted⟩ := bind_eq_ok hexecuted
  obtain ⟨hartifacts, hanswer⟩ := raiseUnless_bind_eq_ok hlisted
  obtain rfl := Except.ok.inj hanswer
  refine ⟨wrapped_eq_ok hsummary, ⟨receipt, wrapped_eq_ok hsigned, rfl⟩,
    states_of_checkStated hinputs, states_of_checkStated hexecution, hartifacts.1, ?_⟩
  simpa using hartifacts.2

/-- A verified attestation names its run, its nonce and its provider by texts. -/
theorem verify_eq_ok {trusted : String → Option Bytes}
    (hverified : verifyIndependentRunnerAttestation primitives dossier envelope trusted =
      .ok verified) :
    dossier.get "run_id" = .text verified.dossier.runId ∧
      dossier.get "nonce" = .text verified.dossier.nonce ∧
        (dossier.get "runner").get "provider_id" = .text verified.dossier.providerId ∧
          isBlank verified.dossier.providerId = false :=
  ExperimentDossier.validateExperimentDossier_eq_ok (isVerified_of_verify hverified).dossierValid

/-- An attestation verifies again wherever its key is still trusted. -/
theorem verify_of_trusted {trusted later : String → Option Bytes}
    (hverified : verifyIndependentRunnerAttestation primitives dossier envelope trusted =
      .ok verified)
    (hlater : later verified.keyId = trusted verified.keyId) :
    verifyIndependentRunnerAttestation primitives dossier envelope later = .ok verified := by
  obtain ⟨signed, hsame, hkey⟩ := (isVerified_of_verify hverified).signed
  obtain ⟨summary, hsummary, hreceipt⟩ := bind_eq_ok hverified
  obtain ⟨receipt, hsigned, hrest⟩ := bind_eq_ok hreceipt
  obtain rfl : signed = receipt :=
    Except.ok.inj (hsame.symm.trans (wrapped_eq_ok hsigned))
  rw [← hkey] at hlater
  have hagain := LabExecutionReceipt.verifySignedReceipt_of_trusted hsame hlater
  rw [verifyIndependentRunnerAttestation, bind_eq_ok_iff]
  refine ⟨summary, hsummary, ?_⟩
  rw [bind_eq_ok_iff, hagain]
  exact ⟨signed, rfl, hrest⟩

end AegisForge.Shared.IndependentRunnerAttestation
