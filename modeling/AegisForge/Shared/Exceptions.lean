/-!
# Exceptions

Every error of the modelled code carries its class and its text, because
callers catch by class and wrap the text of what they caught.
-/

namespace AegisForge.Shared

inductive ExceptionClass
  | agentAuthorityError
  | agentIdentitySignatureError
  | attestationError
  | attestationRegistryError
  | attestationReplayRegistryError
  | attestorError
  | attributeError
  | authorityStateError
  | capabilityGrantError
  | capabilityGrantStoreError
  | capabilitySignatureError
  | caseRoundError
  | caseValidationError
  | evidenceManifestError
  | executionAttemptError
  | executionGateError
  | executionRecoveryCoordinatorError
  | executionRecoveryError
  | executionRetryAuthorizationError
  | experimentDossierError
  | independentRunnerAttestationError
  | labExecutionReceiptError
  | outcomeContractError
  | outcomeProofError
  | outcomeVerifierRegistryError
  | recoveryEvidenceError
  | recoveryTrustError
  | replayRecoveryError
  | researchCaseBundleError
  | signedActionIntentError
  | taskGraphError
  | temporalTrustError
  | typeError
  | valueError
  | keyError
  | runtimeError
  | overflowError
  | integrityError
  | operationalError
  | externalError
  deriving DecidableEq, Repr

/-- `ValueError` and the classes declared as `class ...(ValueError)`: all but
the others of the language and those of the database and injected callables. -/
def ExceptionClass.isValueError : ExceptionClass → Bool
  | .attributeError => false
  | .typeError => false
  | .keyError => false
  | .runtimeError => false
  | .overflowError => false
  | .integrityError => false
  | .operationalError => false
  | .externalError => false
  | _ => true

/-- A raised exception: its class and `str(exc)`. -/
structure Raised where
  cls : ExceptionClass
  message : String
  deriving DecidableEq, Repr

end AegisForge.Shared
