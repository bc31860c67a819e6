import AegisForge.Concurrency.Safety
import AegisForge.Shared.ReplayJournal
import AegisForge.Tools.ReplayAnchor

/-!
# Replay registration with an external anchor

The strict adapter records an attestation in the local registry and then moves
an anchor outside it from the state that was read to the recorded event.  The
anchor never names anything but a point of the local journal, whatever the
interleaving of the callers and wherever they stop.
-/

namespace AegisForge.Shared.AnchoredAttestationReplay

open AegisForge.Core AegisForge.Concurrency
open AttestorRegistry (Bytes)
open ReplayRegistry hiding Statement execute Action send
open Tools.ReplayAnchor (AnchorRow AnchorTable CasOutcome CasRequest isValidAnchorRow
  compareAndSet insertAnchor)

/-! ## The anchor store -/

/-- `ReplayAnchorUnavailable`, a subclass of `AttestationReplayRegistryError`. -/
def anchorUnavailable (message : String) : Raised := registryError message

/-- How an exchange with the anchor store ends. -/
inductive Delivery
  | answered
  | requestLost
  | responseLost
  deriving DecidableEq, Repr

/-- `get_anchor`. -/
def getAnchor (providerId : String) (delivery : Delivery) (anchors : AnchorTable) :
    Except Raised AnchorRow :=
  match delivery, anchors.lookup providerId with
  | .answered, some row =>
      if isValidAnchorRow row = true then .ok row
      else .error (anchorUnavailable "external_anchor_unavailable_fail_closed")
  | _, _ => .error (anchorUnavailable "external_anchor_unavailable_fail_closed")

/-- What the caller makes of how a request ended: only a response tells it. -/
def casAnswer : Delivery → CasOutcome → Except Raised Bool
  | .answered, .updated => .ok true
  | .answered, .conflict => .ok false
  | _, _ => .error (anchorUnavailable "external_anchor_cas_outcome_unknown")

/-- `compare_and_set_anchor`. -/
def compareAndSetAnchor (request : CasRequest) (delivery : Delivery) (anchors : AnchorTable) :
    Except Raised Bool × AnchorTable :=
  if request.expectedSequence < 0 ∨ request.newSequence ≠ request.expectedSequence + 1 then
    (.error (anchorUnavailable "external_anchor_cas_sequence_invalid"), anchors)
  else if ¬(isDigestText request.expectedHead = true ∧ isDigestText request.newHead = true) then
    (.error (anchorUnavailable "external_anchor_cas_head_invalid"), anchors)
  else if delivery = .requestLost then
    (.error (anchorUnavailable "external_anchor_cas_outcome_unknown"), anchors)
  else
    let (outcome, after) := compareAndSet request false anchors
    (casAnswer delivery outcome, after)

/-- `_validate_anchor`. -/
def validateAnchor (providerId : String) (row : AnchorRow) : Except Raised (ℤ × String) := do
  raiseUnless (row.providerId = providerId)
    (anchorUnavailable "external_anchor_provider_mismatch")
  raiseUnless (0 ≤ row.sequence) (anchorUnavailable "external_anchor_sequence_invalid")
  raiseUnless (isDigestText row.headSha256 = true) (anchorUnavailable "external_anchor_head_invalid")
  raiseUnless (¬(row.sequence = 0 ∧ row.headSha256 ≠ genesis))
    (anchorUnavailable "external_anchor_genesis_invalid")
  pure (row.sequence, row.headSha256)

/-- `_local_state`, which reads from one snapshot. -/
def localState (providerId : String) (registry : Registry) : Except Raised (ℤ × String) :=
  match registry.state.lookup providerId with
  | none =>
      if (registry.acceptedOf providerId).length ≠ 0 then
        .error (registryError "replay_registry_legacy_state_requires_migration")
      else .ok (0, genesis)
  | some row =>
      if row.sequence < 0 then .error (registryError "replay_registry_journal_state_invalid")
      else .ok (row.sequence, row.head)

/-! ## Statements -/

/-- The local database and the anchors, which are kept apart from it. -/
structure World where
  registry : Registry
  anchors : AnchorTable

def World.empty : World := ⟨.empty, .empty⟩

/-- What is atomic: an exchange with the anchor store, and a transaction. -/
inductive Statement
  | provision (providerId : String) (faulty : Bool)
  | getAnchor (providerId : String) (delivery : Delivery)
  | compareAndSetAnchor (request : CasRequest) (delivery : Delivery)
  | localState (providerId : String)
  | record (call : ReplayRegistry.RecordCall)

abbrev Statement.Reply : Statement → Type
  | provision _ _ => Unit
  | getAnchor _ _ => Except Raised AnchorRow
  | compareAndSetAnchor _ _ => Except Raised Bool
  | localState _ => Except Raised (ℤ × String)
  | record _ => Except Raised Recorded

def execute (primitives : Primitives) : Concurrency.Execution Statement.Reply World
  | .provision providerId faulty, world =>
      ((), { world with anchors := (insertAnchor providerId faulty world.anchors).2 })
  | .getAnchor providerId delivery, world =>
      (AnchoredAttestationReplay.getAnchor providerId delivery world.anchors, world)
  | .compareAndSetAnchor request delivery, world =>
      let (answer, anchors) :=
        AnchoredAttestationReplay.compareAndSetAnchor request delivery world.anchors
      (answer, { world with anchors := anchors })
  | .localState providerId, world =>
      (AnchoredAttestationReplay.localState providerId world.registry, world)
  | .record call, world =>
      let (answer, registry) := verifyAndRecordAttestation primitives call world.registry
      (answer, { world with registry := registry })

abbrev Action (Value : Type) : Type := Program Statement.Reply Raised Value

def send (statement : Statement) : Action statement.Reply := Program.call statement

/-- A statement that raises what it answers as an error. -/
def attempt {Value : Type} (answered : Action (Except Raised Value)) : Action Value := do
  let answer ← answered
  Program.ofExcept answer

/-! ## The strict adapter -/

/-- The arguments of `verify_and_record_attestation_anchored`, and how its exchanges end. -/
structure AnchoredCall where
  dossier : Document
  envelope : Document
  trustedPublicKeys : String → Option Bytes
  reading : Delivery
  publishing : Delivery

/-- `dossier.get("runner", {}).get("provider_id")`, which must be a text. -/
def providerOf (dossier : Json) : Except Raised String :=
  orRaise (registryError "attestation_provider_id_invalid")
    (((dossier.get "runner").get "provider_id").text?.filter fun text => text ≠ "")

/-- The anchor as it is read, with every exception of the store translated. -/
def readAnchor (providerId : String) (delivery : Delivery) : Action (ℤ × String) := do
  let answer : Except Raised AnchorRow ← send (.getAnchor providerId delivery)
  match answer with
  | .error _ => .fail (anchorUnavailable "external_anchor_unavailable_fail_closed")
  | .ok row => Program.ofExcept (validateAnchor providerId row)

/-- `verify_and_record_attestation_anchored`. -/
def verifyAndRecordAttestationAnchored (call : AnchoredCall) : Action Recorded := do
  let providerId ← Program.ofExcept (providerOf call.dossier.val)
  let expected ← readAnchor providerId call.reading
  let found ← attempt (send (.localState providerId))
  Program.raiseIf (found ≠ expected)
    (anchorUnavailable "local_registry_differs_from_external_anchor")
  let recorded ← attempt (send (.record
    ⟨call.dossier, call.envelope, call.trustedPublicKeys, none, none⟩))
  Program.raiseIf (recorded.sequence ≠ expected.1 + 1)
    (anchorUnavailable "local_registry_unexpected_successor")
  let published : Except Raised Bool ← send (.compareAndSetAnchor
    ⟨providerId, expected.1, expected.2, recorded.sequence, recorded.head⟩ call.publishing)
  match published with
  | .error _ => .fail (anchorUnavailable "external_anchor_publish_failed_reconcile_required")
  | .ok false =>
      .fail (anchorUnavailable "external_anchor_compare_and_set_conflict_reconcile_required")
  | .ok true => pure recorded

inductive Call
  | provision (providerId : String) (faulty : Bool)
  | register (call : AnchoredCall)

inductive Answer
  | provisioned
  | recorded (recorded : Recorded)

def Call.body : Call → Action Answer
  | .provision providerId faulty => do
      send (.provision providerId faulty)
      pure .provisioned
  | .register call => do return .recorded (← verifyAndRecordAttestationAnchored call)

end AegisForge.Shared.AnchoredAttestationReplay
