import AegisForge.Core.JsonRoundTrip
import AegisForge.Shared.AnchoredAttestationReplay
import AegisForge.Shared.ReplayRegistryRecovery

/-!
# Pending-first replay registration

A candidate is staged in the local database, the external anchor is moved to it,
and only then is it accepted.  A call may stop anywhere in between: recovery takes
a staged candidate up again, with the anchor as the authority.
-/

namespace AegisForge.Shared.PendingAnchoredReplay

open AegisForge.Core AegisForge.Concurrency
open AttestorRegistry (Bytes)
open IndependentRunnerAttestation (VerifiedAttestation verifyIndependentRunnerAttestation)
open ReplayRegistry (PendingRow PendingStatus Registry ReplayEvent Document Recorded
  genesis registryError)
open ReplayRegistryRecovery (Request Plan buildReplayRecoveryPlan)
open AnchoredAttestationReplay (Delivery anchorUnavailable)
open Tools.ReplayAnchor (CasRequest)

/-! ## Candidates -/

/-- The columns of a pending row that the acceptance of its event does not read. -/
structure StagedColumns where
  keyId : String
  expectedSequence : ℤ
  expectedHead : String
  dossierJson : String
  envelopeJson : String
  deriving DecidableEq, Repr

/-- A row of `pending_anchored_replay`. -/
structure Candidate where
  row : PendingRow
  columns : StagedColumns
  deriving DecidableEq, Repr

/-- The state of the journal that the candidate follows. -/
def Candidate.prior (candidate : Candidate) : ℤ × String :=
  (candidate.columns.expectedSequence, candidate.columns.expectedHead)

/-- The state of the journal that the candidate leads to. -/
def Candidate.point (candidate : Candidate) : ℤ × String :=
  (candidate.row.candidateSequence, candidate.row.candidateHead)

/-- The primitives that come from outside. -/
structure Primitives extends toRecovery : ReplayRegistryRecovery.Primitives where
  /-- SHA-256 of the pending domain and the canonical JSON of event, dossier and envelope. -/
  candidateHash : ReplayEvent → Json → Json → String

/-- The event of `_candidate`. -/
def candidateEvent (verified : VerifiedAttestation) (prior : ℤ × String) : ReplayEvent :=
  ⟨verified.dossier.providerId, prior.1 + 1, prior.2, verified.dossier.runId,
    verified.dossier.nonce, verified.receiptSha256⟩

/-! ## The local database -/

/-- The columns of the pending rows stand beside the part that the registry reads. -/
structure World extends AnchoredAttestationReplay.World where
  columns : String → Option StagedColumns

namespace World

def empty : World := ⟨.empty, fun _ => none⟩

/-- `_ensure_pending_schema`. -/
def ensurePending (world : World) : World :=
  { world with registry :=
      { world.registry with pending := some (world.registry.pending.getD .empty) } }

/-- The row of a candidate, if it is staged. -/
def candidate? (world : World) (candidateId : String) : Option Candidate := do
  let pending ← world.registry.pending
  let row ← pending.lookup candidateId
  let columns ← world.columns candidateId
  some ⟨row, columns⟩

end World

/-- The state of the journal inside the transaction that stages a candidate. -/
def currentState (registry : Registry) (providerId : String) : Except Raised (ℤ × String) :=
  match registry.state.lookup providerId with
  | none =>
      if (registry.acceptedOf providerId).length ≠ 0 ∨
          (registry.journalOf providerId).length ≠ 0 then
        .error (registryError "replay_registry_legacy_state_requires_migration")
      else .ok (0, genesis)
  | some row => .ok (row.sequence, row.head)

/-- Another candidate for the same run or nonce of the provider. -/
def isRival (row other : PendingRow) : Bool :=
  other.providerId = row.providerId && (other.runId = row.runId || other.nonce = row.nonce) &&
    other.candidateId ≠ row.candidateId

/-- The body of the transaction of `_persist_pending`. -/
def stage (candidate : Candidate) (world : World) : Except Raised World := do
  let row := candidate.row
  let pending := world.registry.pending.getD .empty
  let current ← currentState world.registry row.providerId
  raiseUnless (current = candidate.prior)
    (anchorUnavailable "local_registry_differs_from_external_anchor")
  raiseUnless ((world.registry.acceptedOf row.providerId).any (fun accepted =>
      accepted.runId = row.runId || accepted.nonce = row.nonce) = false)
    (registryError "attestation_replay_detected:run_id_or_nonce_already_seen")
  match pending.lookup row.candidateId with
  | some existing => do
      raiseUnless (existing.candidateHead = row.candidateHead)
        (registryError "pending_candidate_id_collision")
      raiseUnless (existing.status ≠ .conflict)
        (anchorUnavailable "pending_candidate_conflict_requires_review")
      pure world
  | none => do
      match pending.rows.find? (isRival row) with
      | some rival =>
          .error (if rival.status = .conflict then
            anchorUnavailable "pending_candidate_conflict_requires_review"
            else registryError "pending_candidate_run_or_nonce_already_staged")
      | none => do
          let after ← orRaise (anchorUnavailable "pending_registry_unavailable_fail_closed")
            (pending.insert? row)
          pure { world with
            registry := { world.registry with pending := some after }
            columns := Function.update world.columns row.candidateId (some candidate.columns) }

/-- `_persist_pending`: the table stays when the transaction is rolled back. -/
def persistPending (candidate : Candidate) (world : World) : Except Raised Unit × World :=
  match stage candidate world.ensurePending with
  | .error error => (.error error, world.ensurePending)
  | .ok after => (.ok (), after)

/-- The row with another status. -/
def restatus (status : PendingStatus) (row : PendingRow) : PendingRow :=
  { row with status := status }

/-- `UPDATE ... SET status=...` on the row of a candidate. -/
def World.setStatus (world : World) (candidateId : String) (status : PendingStatus) : World :=
  { world with registry := { world.registry with
      pending := world.registry.pending.map fun pending =>
        pending.modify candidateId (restatus status) (fun _ => rfl) (fun _ => rfl) } }

/-- The row is that of the candidate, and it is not quarantined. -/
def isOpenRow (row stored : PendingRow) : Bool :=
  stored.candidateId = row.candidateId && stored.providerId = row.providerId &&
    stored.runId = row.runId && stored.nonce = row.nonce &&
      stored.receiptSha256 = row.receiptSha256 &&
        stored.candidateSequence = row.candidateSequence &&
          stored.candidateHead = row.candidateHead && stored.status ≠ .conflict

/-- The transaction of `_finalize_pending` for an event that the journal ends in already. -/
def finalizeStored (row : PendingRow) (world : World) : Except Raised Unit × World :=
  if (world.registry.evidenceOf row.providerId).any (fun evidence =>
      evidence.sequence = row.candidateSequence && evidence.runId = row.runId &&
        evidence.nonce = row.nonce && evidence.receiptSha256 = row.receiptSha256 &&
          evidence.journalHead = row.candidateHead) = false then
    (.error (anchorUnavailable "anchored_candidate_local_evidence_missing"), world)
  else if (world.registry.pending.bind fun pending =>
      pending.lookup row.candidateId).any (isOpenRow row) = false then
    (.error (anchorUnavailable "pending_candidate_not_finalizable"), world)
  else (.ok (), world.setStatus row.candidateId .finalized)

/-! ## Statements -/

/-- What is atomic here, besides the statements of the strict adapter. -/
inductive Statement
  | anchored (statement : AnchoredAttestationReplay.Statement)
  | ensurePending
  | persistPending (candidate : Candidate)
  | selectCandidate (candidateId : String)
  | markConflict (candidateId : String)
  | recoveryPlan (request : Request)
  | finalizeStored (row : PendingRow)

abbrev Statement.Reply : Statement → Type
  | anchored statement => statement.Reply
  | ensurePending => Unit
  | persistPending _ => Except Raised Unit
  | selectCandidate _ => Option Candidate
  | markConflict _ => Unit
  | recoveryPlan _ => Except Raised Plan
  | finalizeStored _ => Except Raised Unit

def execute (primitives : Primitives) : Concurrency.Execution Statement.Reply World
  | .anchored statement, world =>
      let (reply, after) :=
        AnchoredAttestationReplay.execute primitives.toRecovery.toPrimitives statement
          world.toWorld
      (reply, { world with toWorld := after })
  | .ensurePending, world => ((), world.ensurePending)
  | .persistPending candidate, world => PendingAnchoredReplay.persistPending candidate world
  | .selectCandidate candidateId, world => (world.candidate? candidateId, world)
  | .markConflict candidateId, world => ((), world.setStatus candidateId .conflict)
  | .recoveryPlan request, world =>
      (buildReplayRecoveryPlan primitives.toRecovery request world.registry, world)
  | .finalizeStored row, world => PendingAnchoredReplay.finalizeStored row world

abbrev Action (Value : Type) : Type := Program Statement.Reply Raised Value

def send (statement : Statement) : Action statement.Reply := Program.call statement

/-- A part of the strict adapter. -/
def lift {Value : Type} (program : AnchoredAttestationReplay.Action Value) : Action Value :=
  program.embed .anchored fun _ reply => reply

def attempt {Value : Type} (answered : Action (Except Raised Value)) : Action Value := do
  let answer ← answered
  Program.ofExcept answer

/-! ## Finalization -/

/-- `json.loads` of a stored document. -/
def readDocument (primitives : Primitives) (text : String) : Option Document :=
  (primitives.loads text).map fun value => ⟨value.sortKeys, Json.isCanonical_sortKeys value⟩

/-- The signed evidence of a candidate is verified again, and bound to its columns. -/
def reverify (primitives : Primitives) (trustedPublicKeys : String → Option Bytes)
    (candidate : Candidate) : Except Raised (Document × Document) := do
  let dossier ← orRaise (anchorUnavailable "pending_evidence_reverification_failed")
    (readDocument primitives candidate.columns.dossierJson)
  let envelope ← orRaise (anchorUnavailable "pending_evidence_reverification_failed")
    (readDocument primitives candidate.columns.envelopeJson)
  let verified ← orRaise (anchorUnavailable "pending_evidence_reverification_failed")
    (verifyIndependentRunnerAttestation primitives.attestations dossier.val envelope.val
      trustedPublicKeys).toOption
  raiseUnless (verified.dossier.providerId = candidate.row.providerId ∧
      verified.dossier.runId = candidate.row.runId ∧
      verified.dossier.nonce = candidate.row.nonce ∧
      verified.receiptSha256 = candidate.row.receiptSha256)
    (anchorUnavailable "pending_evidence_binding_mismatch")
  let event := candidateEvent verified candidate.prior
  raiseUnless ((event.sequence, primitives.eventHash event) = candidate.point)
    (anchorUnavailable "pending_candidate_hash_mismatch")
  pure (dossier, envelope)

/-- What a finalization answers: the accepted state of the journal, and whether it was
accepted before. -/
structure Finalized where
  point : ℤ × String
  recovered : Bool
  deriving DecidableEq, Repr

/-- The event is the last of the journal already. -/
def finalizeAccepted (trustedPublicKeys : String → Option Bytes) (candidate : Candidate) :
    Action Finalized := do
  let _ ← attempt (send (.recoveryPlan
    ⟨candidate.row.providerId, candidate.point, trustedPublicKeys⟩))
  attempt (send (.finalizeStored candidate.row))
  pure ⟨candidate.point, true⟩

/-- `_finalize_pending`, with what it does when it enters itself again. -/
def finalizeWith (primitives : Primitives) (trustedPublicKeys : String → Option Bytes)
    (candidateId : String) (again : Action Finalized) : Action Finalized := do
  let selected : Option Candidate ← send (.selectCandidate candidateId)
  match selected with
  | none => .fail (anchorUnavailable "pending_candidate_missing")
  | some candidate => do
      Program.raiseIf (candidate.row.status = .conflict)
        (anchorUnavailable "pending_candidate_conflict_requires_review")
      let documents ← Program.ofExcept (reverify primitives trustedPublicKeys candidate)
      let found ← attempt (send (.anchored (.localState candidate.row.providerId)))
      if found = candidate.point then finalizeAccepted trustedPublicKeys candidate
      else do
        Program.raiseIf (found ≠ candidate.prior)
          (anchorUnavailable "local_registry_differs_from_pending_prior_anchor")
        let recorded : Except Raised Recorded ← send (.anchored (.record
          ⟨documents.1, documents.2, trustedPublicKeys, some candidate.prior, some candidateId⟩))
        match recorded with
        | .ok recorded => do
            Program.raiseIf ((recorded.sequence, recorded.head) ≠ candidate.point)
              (anchorUnavailable "finalized_journal_does_not_match_anchored_candidate")
            pure ⟨candidate.point, false⟩
        | .error error => do
            -- Another recoverer may have accepted the candidate in between.
            let current ← attempt (send (.anchored (.localState candidate.row.providerId)))
            if current ≠ candidate.point then .fail error else again

/-- `_finalize_pending`, which enters itself again as often as `depth` allows. -/
def finalizePending (primitives : Primitives) (trustedPublicKeys : String → Option Bytes)
    (candidateId : String) : ℕ → Action Finalized
  | 0 =>
      finalizeWith primitives trustedPublicKeys candidateId
        (.fail ⟨.runtimeError, "maximum recursion depth exceeded"⟩)
  | depth + 1 =>
      finalizeWith primitives trustedPublicKeys candidateId
        (finalizePending primitives trustedPublicKeys candidateId depth)

/-! ## Registration -/

/-- How the exchanges of a call with the anchor store end. -/
structure Deliveries where
  reading : Delivery
  rereading : Delivery
  publishing : Delivery
  observing : Delivery
  confirming : Delivery
  deriving DecidableEq, Repr

/-- The arguments of `verify_and_record_attestation_pending_anchored`. -/
structure PendingCall where
  dossier : Document
  envelope : Document
  trustedPublicKeys : String → Option Bytes
  deliveries : Deliveries
  depth : ℕ

/-- The provider that the dossier names. -/
def providerOf (dossier envelope : Json) : Except Raised String := do
  raiseUnless (dossier.isObject = true ∧ envelope.isObject = true)
    (registryError "attestation_payload_invalid")
  AnchoredAttestationReplay.providerOf dossier

/-- The request that moves the anchor to a candidate. -/
def Candidate.request (candidate : Candidate) : CasRequest :=
  ⟨candidate.row.providerId, candidate.prior.1, candidate.prior.2, candidate.point.1,
    candidate.point.2⟩

/-- The anchor is read, and must be at the candidate. -/
def requireAnchor (candidate : Candidate) (delivery : Delivery) (error : Raised) :
    Action PUnit := do
  let observed ← lift (AnchoredAttestationReplay.readAnchor candidate.row.providerId delivery)
  Program.raiseIf (observed ≠ candidate.point) error

/-- The candidate is quarantined. -/
def quarantine (candidateId message : String) : Action PUnit := do
  let _ ← send (.markConflict candidateId)
  .fail (anchorUnavailable message)

/-- The exchange that moves the anchor, and what is made of its answer. -/
def publish (candidate : Candidate) (deliveries : Deliveries) : Action PUnit := do
  let published : Except Raised Bool ←
    send (.anchored (.compareAndSetAnchor candidate.request deliveries.publishing))
  match published with
  | .ok true => pure ⟨⟩
  | .error _ =>
      (requireAnchor candidate deliveries.observing
        (anchorUnavailable "external_anchor_publish_outcome_unknown")).mapError
          fun _ => anchorUnavailable "external_anchor_publish_outcome_unknown"
  | .ok false => do
      let observed ← (lift (AnchoredAttestationReplay.readAnchor candidate.row.providerId
        deliveries.observing)).mapError
          fun _ => anchorUnavailable "external_anchor_conflict_outcome_unknown"
      if observed = candidate.point then pure ⟨⟩
      else
        quarantine candidate.row.candidateId
          "external_anchor_compare_and_set_conflict_pending_not_accepted"

/-- The candidate that an attestation is staged as. -/
def candidateOf (primitives : Primitives) (call : PendingCall) (verified : VerifiedAttestation)
    (prior : ℤ × String) (dossierJson envelopeJson : String) : Candidate :=
  let event := candidateEvent verified prior
  { row :=
      { candidateId := primitives.candidateHash event call.dossier.val call.envelope.val
        providerId := verified.dossier.providerId
        runId := verified.dossier.runId
        nonce := verified.dossier.nonce
        receiptSha256 := verified.receiptSha256
        candidateSequence := event.sequence
        candidateHead := primitives.eventHash event
        status := .prepared }
    columns := ⟨verified.keyId, prior.1, prior.2, dossierJson, envelopeJson⟩ }

/-- The anchor is moved to a candidate unless it is there, or somewhere else. -/
def publishFrom (candidate : Candidate) (deliveries : Deliveries) (current : ℤ × String) :
    Action PUnit :=
  if current = candidate.point then pure ⟨⟩
  else if current = candidate.prior then publish candidate deliveries
  else quarantine candidate.row.candidateId "external_anchor_advanced_to_unrelated_head"

/-- What follows once the candidate is staged. -/
def anchorAndFinalize (primitives : Primitives) (call : PendingCall) (candidate : Candidate) :
    Action Finalized := do
  let current ← lift (AnchoredAttestationReplay.readAnchor candidate.row.providerId
    call.deliveries.rereading)
  publishFrom candidate call.deliveries current
  requireAnchor candidate call.deliveries.confirming
    (anchorUnavailable "external_anchor_changed_before_finalization")
  finalizePending primitives call.trustedPublicKeys candidate.row.candidateId call.depth

/-- `verify_and_record_attestation_pending_anchored`. -/
def register (primitives : Primitives) (call : PendingCall) : Action Finalized := do
  let providerId ← Program.ofExcept (providerOf call.dossier.val call.envelope.val)
  let verified ← Program.ofExcept
    (match verifyIndependentRunnerAttestation primitives.attestations call.dossier.val
        call.envelope.val call.trustedPublicKeys with
    | .ok verified => .ok verified
    | .error error => .error (registryError ("attestation_invalid:" ++ error.message)))
  let prior ← lift (AnchoredAttestationReplay.readAnchor providerId call.deliveries.reading)
  let found ← attempt (send (.anchored (.localState providerId)))
  Program.raiseIf (found ≠ prior)
    (anchorUnavailable "local_registry_differs_from_external_anchor")
  let dossierJson ← Program.ofExcept
    (ReplayRegistry.canonicalText primitives.toRecovery.toPrimitives call.dossier.val)
  let envelopeJson ← Program.ofExcept
    (ReplayRegistry.canonicalText primitives.toRecovery.toPrimitives call.envelope.val)
  let candidate := candidateOf primitives call verified prior dossierJson envelopeJson
  attempt (send (.persistPending candidate))
  anchorAndFinalize primitives call candidate

/-! ## Recovery -/

/-- The arguments of `recover_pending_attestation`. -/
structure RecoverCall where
  candidateId : String
  trustedPublicKeys : String → Option Bytes
  deliveries : Deliveries
  depth : ℕ

/-- The anchor is moved to a candidate that is still to be anchored. -/
def republish (candidate : Candidate) (deliveries : Deliveries) : Action PUnit := do
  Program.raiseIf (candidate.row.status ≠ .prepared)
    (anchorUnavailable "pending_candidate_conflict_requires_review")
  let published : Except Raised Bool ←
    send (.anchored (.compareAndSetAnchor candidate.request deliveries.publishing))
  match published with
  | .ok true => pure ⟨⟩
  | .error _ =>
      requireAnchor candidate deliveries.observing
        (anchorUnavailable "pending_recovery_cas_outcome_unknown")
  | .ok false =>
      requireAnchor candidate deliveries.observing
        (anchorUnavailable "pending_recovery_cas_conflict")

/-- The anchor is at the candidate, or is moved to it. -/
def republishFrom (candidate : Candidate) (deliveries : Deliveries) (anchor : ℤ × String) :
    Action PUnit :=
  if anchor = candidate.prior then republish candidate deliveries
  else
    Program.raiseIf (anchor ≠ candidate.point)
      (anchorUnavailable "pending_candidate_not_confirmed_by_external_anchor")

/-- `recover_pending_attestation`. -/
def recover (primitives : Primitives) (call : RecoverCall) : Action Finalized := do
  let _ ← send .ensurePending
  let selected : Option Candidate ← send (.selectCandidate call.candidateId)
  match selected with
  | none => .fail (anchorUnavailable "pending_candidate_missing")
  | some candidate => do
      Program.raiseIf (candidate.row.status = .conflict)
        (anchorUnavailable "pending_candidate_conflict_requires_review")
      let _ ← Program.ofExcept (reverify primitives call.trustedPublicKeys candidate)
      let anchor ← lift (AnchoredAttestationReplay.readAnchor candidate.row.providerId
        call.deliveries.reading)
      republishFrom candidate call.deliveries anchor
      requireAnchor candidate call.deliveries.confirming
        (anchorUnavailable "external_anchor_changed_before_finalization")
      finalizePending primitives call.trustedPublicKeys call.candidateId call.depth

/-! ## Calls -/

inductive Call
  | provision (providerId : String) (faulty : Bool)
  | register (call : PendingCall)
  | recover (call : RecoverCall)

inductive Answer
  | provisioned
  | finalized (finalized : Finalized)
  deriving DecidableEq

def Call.body (primitives : Primitives) : Call → Action Answer
  | .provision providerId faulty => do
      let _ ← send (.anchored (.provision providerId faulty))
      pure .provisioned
  | .register call => do return .finalized (← PendingAnchoredReplay.register primitives call)
  | .recover call => do return .finalized (← PendingAnchoredReplay.recover primitives call)

end AegisForge.Shared.PendingAnchoredReplay
