import Mathlib.Data.List.Sort
import AegisForge.Concurrency.Program
import AegisForge.Core.HashChain
import AegisForge.Core.Table
import AegisForge.Shared.IndependentRunnerAttestation

/-!
# The attestation replay registry

An accepted attestation reserves its run id and its nonce, appends an event to
the provider's journal and keeps the signed evidence, in one transaction.  The
journal is a chain of hashes whose head stands in the journal state.
-/

namespace AegisForge.Shared.ReplayRegistry

open AegisForge.Core AegisForge.Concurrency
open AttestorRegistry (Bytes)
open IndependentRunnerAttestation (VerifiedAttestation verifyIndependentRunnerAttestation)

/-! ## Rows -/

structure AcceptedRow where
  providerId : String
  keyId : String
  runId : String
  nonce : String
  receiptSha256 : String
  deriving DecidableEq, Repr

structure JournalRow where
  providerId : String
  sequence : ℤ
  previousHead : String
  head : String
  runId : String
  nonce : String
  receiptSha256 : String
  deriving DecidableEq, Repr

structure StateRow where
  providerId : String
  sequence : ℤ
  head : String
  deriving DecidableEq, Repr

structure EvidenceRow where
  providerId : String
  sequence : ℤ
  runId : String
  nonce : String
  receiptSha256 : String
  journalHead : String
  dossierJson : String
  envelopeJson : String
  deriving DecidableEq, Repr

inductive PendingStatus
  | prepared
  | conflict
  | finalized
  deriving DecidableEq, Repr

/-- A row of `pending_anchored_replay`, which other code stages. -/
structure PendingRow where
  candidateId : String
  providerId : String
  runId : String
  nonce : String
  receiptSha256 : String
  candidateSequence : ℤ
  candidateHead : String
  status : PendingStatus
  deriving DecidableEq, Repr

/-- `ORDER BY sequence`. -/
def inOrder (rows : List JournalRow) : List JournalRow :=
  rows.insertionSort fun left right => left.sequence ≤ right.sequence

def AcceptedRow.run (row : AcceptedRow) : String × String := (row.providerId, row.runId)

def AcceptedRow.nonceKey (row : AcceptedRow) : String × String := (row.providerId, row.nonce)

/-- What the constraints of the journal and of the evidence are about. -/
structure EventId where
  providerId : String
  sequence : ℤ
  runId : String
  nonce : String

def JournalRow.id (row : JournalRow) : EventId :=
  ⟨row.providerId, row.sequence, row.runId, row.nonce⟩

def EvidenceRow.id (row : EvidenceRow) : EventId :=
  ⟨row.providerId, row.sequence, row.runId, row.nonce⟩

namespace EventId

def atSequence (id : EventId) : String × ℤ := (id.providerId, id.sequence)

def ofRun (id : EventId) : String × String := (id.providerId, id.runId)

def ofNonce (id : EventId) : String × String := (id.providerId, id.nonce)

end EventId

/-! ## Tables -/

/-- Rows of which no two of a provider share the sequence, the run or the nonce. -/
structure EventTable {Row : Type} (id : Row → EventId) where
  rows : List Row
  sequences : (rows.map fun row => (id row).atSequence).Nodup
  runs : (rows.map fun row => (id row).ofRun).Nodup
  nonces : (rows.map fun row => (id row).ofNonce).Nodup

namespace EventTable

variable {Row : Type} {id : Row → EventId}

def empty : EventTable id := ⟨[], List.nodup_nil, List.nodup_nil, List.nodup_nil⟩

local instance : LawfulBEq (String × String) := inferInstance

/-- `INSERT`, refused when a constraint does not hold. -/
def insert? (table : EventTable id) (row : Row) : Option (EventTable id) :=
  if hsequence : (id row).atSequence ∈ table.rows.map fun row => (id row).atSequence then none
  else if hrun : (id row).ofRun ∈ table.rows.map fun row => (id row).ofRun then none
  else if hnonce : (id row).ofNonce ∈ table.rows.map fun row => (id row).ofNonce then none
  else some {
    rows := table.rows ++ [row]
    sequences := Table.nodup_map_concat table.sequences hsequence
    runs := Table.nodup_map_concat table.runs hrun
    nonces := Table.nodup_map_concat table.nonces hnonce }

theorem rows_insert? {table after : EventTable id} {row : Row}
    (hinsert : table.insert? row = some after) : after.rows = table.rows ++ [row] := by
  rw [insert?] at hinsert
  split at hinsert
  case isTrue => cases hinsert
  case isFalse =>
    split at hinsert
    case isTrue => cases hinsert
    case isFalse =>
      split at hinsert
      case isTrue => cases hinsert
      case isFalse => rw [← Option.some.inj hinsert]

end EventTable

/-- The four tables of the registry, and the pending table when it exists. -/
structure Registry where
  accepted : Table AcceptedRow.run AcceptedRow.nonceKey
  journal : EventTable JournalRow.id
  state : Table StateRow.providerId StateRow.providerId
  evidence : EventTable EvidenceRow.id
  pending : Option (Table PendingRow.candidateId PendingRow.candidateId)

/-- The tables as `_ensure_schema` creates them. -/
def Registry.empty : Registry := ⟨.empty, .empty, .empty, .empty, none⟩

/-! ## Events -/

/-- What `_event_hash` is applied to. -/
structure ReplayEvent where
  providerId : String
  sequence : ℤ
  previousHead : String
  runId : String
  nonce : String
  receiptSha256 : String
  deriving DecidableEq, Repr

/-- The primitives that come from outside. -/
structure Primitives where
  attestations : IndependentRunnerAttestation.Primitives
  /-- `_event_hash`: SHA-256 of the journal domain and the canonical JSON. -/
  eventHash : ReplayEvent → String
  /-- `json.loads`, without a value where it raises `ValueError`. -/
  loads : String → Option Json

/-- `_GENESIS`. -/
def genesis : String := String.ofList (List.replicate 64 '0')

def registryError (message : String) : Raised := ⟨.attestationReplayRegistryError, message⟩

/-- The loop that recomputes the journal, which answers the next sequence and
the head. -/
def recompute (primitives : Primitives) (providerId : String) :
    ℤ → String → List JournalRow → Except Raised (ℤ × String)
  | expectedSequence, expectedPrevious, [] => .ok (expectedSequence, expectedPrevious)
  | expectedSequence, expectedPrevious, row :: rest => do
      let expected := primitives.eventHash ⟨providerId, expectedSequence, expectedPrevious,
        row.runId, row.nonce, row.receiptSha256⟩
      raiseUnless (row.sequence = expectedSequence ∧ row.previousHead = expectedPrevious ∧
        row.head = expected) (registryError "replay_registry_journal_chain_corrupt")
      recompute primitives providerId (expectedSequence + 1) row.head rest

/-! ## Statements -/

inductive Statement
  | selectState (providerId : String)
  | countAccepted (providerId : String)
  | countJournal (providerId : String)
  | selectJournal (providerId : String)
  | insertState (row : StateRow)
  | insertAccepted (row : AcceptedRow)
  | insertJournal (row : JournalRow)
  | upsertState (row : StateRow)
  | insertEvidence (row : EvidenceRow)
  | finalizePending (candidateId : String) (row : EvidenceRow)

/-- What a statement answers: a Boolean tells whether the constraints held, and
the number of finalized rows is missing when the table is. -/
abbrev Statement.Reply : Statement → Type
  | selectState _ => Option StateRow
  | countAccepted _ => ℕ
  | countJournal _ => ℕ
  | selectJournal _ => List JournalRow
  | insertState _ => Bool
  | insertAccepted _ => Bool
  | insertJournal _ => Bool
  | upsertState _ => Unit
  | insertEvidence _ => Bool
  | finalizePending _ _ => Option ℕ

namespace Registry

def acceptedOf (registry : Registry) (providerId : String) : List AcceptedRow :=
  registry.accepted.rows.filter fun row => row.providerId = providerId

def journalOf (registry : Registry) (providerId : String) : List JournalRow :=
  registry.journal.rows.filter fun row => row.providerId = providerId

def evidenceOf (registry : Registry) (providerId : String) : List EvidenceRow :=
  registry.evidence.rows.filter fun row => row.providerId = providerId

/-- `SELECT ... ORDER BY sequence` on the journal. -/
def journalInOrder (registry : Registry) (providerId : String) : List JournalRow :=
  inOrder (registry.journalOf providerId)

end Registry

/-- The row that a candidate's acceptance finalizes. -/
def PendingRow.isFinalizable (row : PendingRow) (candidateId : String) (event : EvidenceRow) :
    Bool :=
  row.candidateId = candidateId && row.providerId = event.providerId &&
    row.runId = event.runId && row.nonce = event.nonce &&
      row.receiptSha256 = event.receiptSha256 && row.candidateSequence = event.sequence &&
        row.candidateHead = event.journalHead && row.status = .prepared

def upsertState (table : Table StateRow.providerId StateRow.providerId) (row : StateRow) :
    Table StateRow.providerId StateRow.providerId :=
  match table.insert? row with
  | some after => after
  | none =>
      table.modify row.providerId
        (fun old => { old with sequence := row.sequence, head := row.head }) (fun _ => rfl)
        (fun _ => rfl)

/-- The effect and the reply of a statement. -/
def execute : Execution Statement.Reply Registry
  | .selectState providerId, registry => (registry.state.lookup providerId, registry)
  | .countAccepted providerId, registry => ((registry.acceptedOf providerId).length, registry)
  | .countJournal providerId, registry => ((registry.journalOf providerId).length, registry)
  | .selectJournal providerId, registry => (registry.journalInOrder providerId, registry)
  | .insertState row, registry =>
      match registry.state.insert? row with
      | some state => (true, { registry with state := state })
      | none => (false, registry)
  | .insertAccepted row, registry =>
      match registry.accepted.insert? row with
      | some accepted => (true, { registry with accepted := accepted })
      | none => (false, registry)
  | .insertJournal row, registry =>
      match registry.journal.insert? row with
      | some journal => (true, { registry with journal := journal })
      | none => (false, registry)
  | .upsertState row, registry =>
      ((), { registry with state := upsertState registry.state row })
  | .insertEvidence row, registry =>
      match registry.evidence.insert? row with
      | some evidence => (true, { registry with evidence := evidence })
      | none => (false, registry)
  | .finalizePending candidateId event, registry =>
      match registry.pending with
      | none => (none, registry)
      | some pending =>
          (some (pending.rows.filter fun row => row.isFinalizable candidateId event).length,
            { registry with
              pending := some (pending.modify candidateId
                (fun row =>
                  if row.isFinalizable candidateId event then { row with status := .finalized }
                  else row)
                (fun row => by split <;> rfl) (fun row => by split <;> rfl)) })

abbrev Action (Value : Type) : Type := Program Statement.Reply Raised Value

def send (statement : Statement) : Action statement.Reply := Program.call statement

/-- A statement that answers whether the constraints held. -/
def insertOrRaise (inserted : Action Bool) : Action PUnit := do
  let committed ← inserted
  Program.raiseIf (committed = false) ⟨.integrityError, "UNIQUE constraint failed"⟩

/-! ## Recording an attestation -/

/-- A provider without a state row has no records. -/
def requireNoLegacy (providerId : String) : Action PUnit := do
  let accepted : ℕ ← send (.countAccepted providerId)
  let journal : ℕ ← send (.countJournal providerId)
  Program.raiseIf (accepted ≠ 0 ∨ journal ≠ 0)
    (registryError "replay_registry_legacy_state_requires_migration")

/-- The state of the journal, with every link recomputed. -/
def journalTail (primitives : Primitives) (providerId : String) : Action (ℤ × String) := do
  let state : Option StateRow ← send (.selectState providerId)
  match state with
  | none => do
      requireNoLegacy providerId
      pure (0, genesis)
  | some state => do
      Program.raiseIf (state.sequence < 0)
        (registryError "replay_registry_journal_state_invalid")
      let rows : List JournalRow ← send (.selectJournal providerId)
      let recomputed ← Program.ofExcept (recompute primitives providerId 1 genesis rows)
      Program.raiseIf (recomputed ≠ (state.sequence + 1, state.head))
        (registryError "replay_registry_journal_state_corrupt")
      pure (state.sequence, state.head)

/-- `_append_journal_event`. -/
def appendJournalEvent (primitives : Primitives) (providerId runId nonce receiptSha256 : String) :
    Action (ℤ × String) := do
  let (sequence, previousHead) ← journalTail primitives providerId
  let nextSequence := sequence + 1
  let head := primitives.eventHash
    ⟨providerId, nextSequence, previousHead, runId, nonce, receiptSha256⟩
  insertOrRaise (send (.insertJournal
    ⟨providerId, nextSequence, previousHead, head, runId, nonce, receiptSha256⟩))
  send (.upsertState ⟨providerId, nextSequence, head⟩)
  pure (nextSequence, head)

/-- A Python value up to the order of its keys: a decoded JSON value whose keys
are sorted. -/
abbrev Document : Type := {value : Json // value.IsCanonical}

/-- The arguments of `verify_and_record_attestation`. -/
structure RecordCall where
  dossier : Document
  envelope : Document
  trustedPublicKeys : String → Option Bytes
  expectedJournalState : Option (ℤ × String) := none
  finalizePendingCandidateId : Option String := none

/-- What `verify_and_record_attestation` answers. -/
structure Recorded where
  verified : VerifiedAttestation
  sequence : ℤ
  head : String

/-- `canonical_json`, which raises a `ValueError`. -/
def canonicalText (primitives : Primitives) (value : Json) : Except Raised String :=
  orRaise (ExperimentDossier.dossierError "dossier_not_canonicalizable")
    (primitives.attestations.dossiers.canonicalJson value)

/-- `if state_missing: action`. -/
def whenMissing (stored : Option StateRow) (action : Action PUnit) : Action PUnit :=
  if stored = none then action else pure ⟨⟩

/-- The candidate that stands for the event is finalized with it. -/
def finalizeCandidate (event : EvidenceRow) : Option String → Action PUnit
  | none => pure ⟨⟩
  | some candidateId => do
      let finalized : Option ℕ ← send (.finalizePending candidateId event)
      match finalized with
      | none => .fail ⟨.operationalError, "no such table: pending_anchored_replay"⟩
      | some count =>
          Program.raiseIf (count ≠ 1)
            (registryError "pending_candidate_not_finalizable_in_acceptance_transaction")

/-- The body of the transaction. -/
def recordAttestation (primitives : Primitives) (call : RecordCall)
    (verified : VerifiedAttestation) : Action Recorded := do
  let providerId := verified.dossier.providerId
  let runId := verified.dossier.runId
  let nonce := verified.dossier.nonce
  let stored : Option StateRow ← send (.selectState providerId)
  whenMissing stored (requireNoLegacy providerId)
  let state := (stored.map fun row => (row.sequence, row.head)).getD (0, genesis)
  Program.raiseIf (call.expectedJournalState.any (· ≠ state) = true)
    (registryError "replay_registry_expected_state_changed")
  whenMissing stored (insertOrRaise (send (.insertState ⟨providerId, 0, genesis⟩)))
  insertOrRaise (send (.insertAccepted
    ⟨providerId, verified.keyId, runId, nonce, verified.receiptSha256⟩))
  let (sequence, head) ←
    appendJournalEvent primitives providerId runId nonce verified.receiptSha256
  let dossierJson ← Program.ofExcept (canonicalText primitives call.dossier.val)
  let envelopeJson ← Program.ofExcept (canonicalText primitives call.envelope.val)
  let event : EvidenceRow := ⟨providerId, sequence, runId, nonce, verified.receiptSha256, head,
    dossierJson, envelopeJson⟩
  insertOrRaise (send (.insertEvidence event))
  finalizeCandidate event call.finalizePendingCandidateId
  pure ⟨verified, sequence, head⟩

/-- What the handlers around the transaction make of an error. -/
def translate (error : Raised) : Raised :=
  if error.cls = .integrityError then
    if error.message = "UNIQUE constraint failed" then
      registryError "attestation_replay_detected:run_id_or_nonce_already_seen"
    else registryError "replay_registry_integrity_constraint_failed"
  else if error.cls = .attestationReplayRegistryError then error
  else registryError "replay_registry_unavailable_fail_closed"

/-- `BEGIN IMMEDIATE`, and `COMMIT` or, when the body raises, `ROLLBACK`. -/
def transaction {Value : Type} (body : Action Value) (registry : Registry) :
    Except Raised Value × Registry :=
  match body.run execute registry with
  | (.ok value, after) => (.ok value, after)
  | (.error error, _) => (.error (translate error), registry)

/-- `verify_and_record_attestation`. -/
def verifyAndRecordAttestation (primitives : Primitives) (call : RecordCall)
    (registry : Registry) : Except Raised Recorded × Registry :=
  match verifyIndependentRunnerAttestation primitives.attestations call.dossier.val
      call.envelope.val call.trustedPublicKeys with
  | .error error => (.error (registryError ("attestation_invalid:" ++ error.message)), registry)
  | .ok verified => transaction (recordAttestation primitives call verified) registry

end AegisForge.Shared.ReplayRegistry
