import AegisForge.Shared.Database

/-!
# The recovery evidence chain

Each event of a recovery commits to the hash of the event before it.
-/

namespace AegisForge.Shared

open AegisForge.Core AegisForge.Concurrency

/-- SHA-256 of the canonical JSON of an event's body comes from outside. -/
structure RecoveryEvidenceChain where
  hashEvent : EvidenceBody → String

namespace RecoveryEvidenceChain

def evidenceError (message : String) : Raised := ⟨.recoveryEvidenceError, message⟩

/-- `GENESIS_HASH`. -/
def genesisHash : String := String.ofList (List.replicate 64 '0')

def getEvent (eventHash : String) : Action EvidenceEvent := do
  match ← send (.selectEvidence eventHash) with
  | none => .fail (evidenceError "evidence_event_not_found")
  | some event => pure event

def append (chain : RecoveryEvidenceChain) (recoveryId attemptId eventType : String)
    (payload : List (String × EvidenceValue)) (now : Option Time) :
    Action EvidenceEvent := do
  Program.raiseIf (isBlank recoveryId) (evidenceError "recovery_id_required")
  Program.raiseIf (isBlank attemptId) (evidenceError "attempt_id_required")
  Program.raiseIf (isBlank eventType) (evidenceError "event_type_required")
  let occurredAt ← currentTime now
  let last ← send (.selectLastEventHash recoveryId)
  let body : EvidenceBody := {
    recoveryId := recoveryId
    attemptId := attemptId
    eventType := eventType
    payload := payload
    occurredAt := occurredAt
    prevHash := last.getD genesisHash }
  let inserted : Bool ← send (.insertEvidence ⟨body, chain.hashEvent body⟩)
  Program.raiseIf (inserted = false) (evidenceError "evidence_append_conflict")
  getEvent (chain.hashEvent body)

end RecoveryEvidenceChain

end AegisForge.Shared
