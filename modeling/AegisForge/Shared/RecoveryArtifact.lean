import AegisForge.Shared.AttestorRegistry

/-!
# Recovery evidence artifacts

`RecoveryEvidenceChain.verify_artifact` checks the exported events of a
recovery without the database they come from.  It answers what is wrong instead
of raising.
-/

namespace AegisForge.Shared.RecoveryArtifact

open AegisForge.Core
open AttestorRegistry (itemsOf isArray)

/-- The primitives that come from outside. -/
structure Primitives where
  /-- `str` of a value that is not text. -/
  textOf : Json → String
  /-- `==` of two decoded values. -/
  equal : Json → Json → Bool
  /-- `_hash_event`: SHA-256 of the canonical JSON of the recovery id, the
  attempt id, the event type, the payload, the time and the previous hash. -/
  hashEvent : String → String → String → Json → String → String → String

def schemaVersion : String := "recovery-evidence-v1"

/-- `GENESIS_HASH`. -/
def genesisHash : String := String.ofList (List.replicate 64 '0')

/-- `str(value)`. -/
def str (primitives : Primitives) : Json → String
  | .text value => value
  | value => primitives.textOf value

/-- What is wrong with an artifact. -/
structure Defect where
  error : String
  events : Option ℕ := none
  eventHash : Option Json := none

/-- What is answered about an artifact without defects. -/
structure Verdict where
  events : ℕ
  headHash : String
  deriving DecidableEq, Repr

def eventFields : List String :=
  ["attempt_id", "event_type", "payload", "occurred_at", "prev_hash", "event_hash"]

/-- The checks of one event, which answer its hash. -/
def verifyEvent (primitives : Primitives) (recoveryId : String) (attemptId : Json)
    (count : ℕ) (previous : String) (event : Json) : Except Defect String := do
  raiseUnless (event.isObject = true) { error := "event_must_be_dict" }
  raiseUnless ((event.get "recovery_id").text? = some recoveryId)
    { error := "recovery_id_mismatch" }
  raiseUnless (attemptId.isNull = true ∨
      primitives.equal (event.get "attempt_id") attemptId = true)
    { error := "attempt_id_mismatch" }
  raiseUnless ((event.get "prev_hash").text? = some previous)
    { error := "broken_prev_hash", events := some count,
      eventHash := some (event.get "event_hash") }
  raiseUnless (∀ field ∈ eventFields, field ∈ event.keys) { error := "event_field_missing" }
  let expected := primitives.hashEvent (str primitives (event.get "recovery_id"))
    (str primitives (event.get "attempt_id")) (str primitives (event.get "event_type"))
    (event.get "payload") (str primitives (event.get "occurred_at"))
    (str primitives (event.get "prev_hash"))
  raiseUnless ((event.get "event_hash").text? = some expected)
    { error := "event_hash_mismatch", events := some count,
      eventHash := some (event.get "event_hash") }
  pure expected

/-- The loop over the events, which answers the head hash. -/
def verifyEvents (primitives : Primitives) (recoveryId : String) (attemptId : Json)
    (count : ℕ) : String → List Json → Except Defect String
  | previous, [] => .ok previous
  | previous, event :: rest => do
      let next ← verifyEvent primitives recoveryId attemptId count previous event
      verifyEvents primitives recoveryId attemptId count next rest

/-- `verify_artifact`. -/
def verifyArtifact (primitives : Primitives) (artifact : Json) : Except Defect Verdict := do
  raiseUnless (artifact.isObject = true) { error := "artifact_must_be_dict" }
  raiseUnless ((artifact.get "schema_version").text? = some schemaVersion)
    { error := "unsupported_schema_version" }
  let recoveryId ← orRaise { error := "recovery_id_required" }
    (artifact.get "recovery_id").filledText?
  raiseUnless (isArray (artifact.get "events") = true) { error := "events_must_be_list" }
  let events := itemsOf (artifact.get "events")
  let headHash ← verifyEvents primitives recoveryId (artifact.get "attempt_id") events.length
    genesisHash events
  raiseUnless ((artifact.get "head_hash").text? = some headHash)
    { error := "head_hash_mismatch", events := some events.length }
  pure ⟨events.length, headHash⟩

end AegisForge.Shared.RecoveryArtifact
