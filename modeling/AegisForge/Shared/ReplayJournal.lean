import Mathlib.Data.String.Basic
import AegisForge.Core.Runs
import AegisForge.Shared.AttestationReplayRegistry

/-!
# The journal of the replay registry

What the registry holds of a provider is a ledger, which grows by an entry for
every attestation that is recorded.  All that the four tables say of a provider
follows from its entries.
-/

namespace AegisForge.Shared.ReplayRegistry

open AegisForge.Core AegisForge.Concurrency
open AttestorRegistry (Bytes)
open IndependentRunnerAttestation (VerifiedAttestation verifyIndependentRunnerAttestation)

/-! ## Ledgers -/

/-- What is recorded of an attestation. -/
structure Entry where
  providerId : String
  keyId : String
  runId : String
  nonce : String
  receiptSha256 : String
  dossierJson : String
  envelopeJson : String
  deriving DecidableEq, Repr

/-- The entry is what a call records. -/
def Entry.IsOf (primitives : Primitives) (call : RecordCall) (entry : Entry) : Prop :=
  ∃ verified dossierJson envelopeJson,
    verifyIndependentRunnerAttestation primitives.attestations call.dossier.val
        call.envelope.val call.trustedPublicKeys = .ok verified ∧
      primitives.attestations.dossiers.canonicalJson call.dossier.val = some dossierJson ∧
      primitives.attestations.dossiers.canonicalJson call.envelope.val = some envelopeJson ∧
      entry = ⟨verified.dossier.providerId, verified.keyId, verified.dossier.runId,
        verified.dossier.nonce, verified.receiptSha256, dossierJson, envelopeJson⟩

/-- What the tables hold of a provider. -/
@[ext]
structure Ledger where
  accepted : List AcceptedRow
  journal : List JournalRow
  evidence : List EvidenceRow
  state : Option StateRow

namespace Ledger

def empty : Ledger := ⟨[], [], [], none⟩

/-- The last sequence and the head of the journal. -/
def last (ledger : Ledger) : ℤ × String :=
  (ledger.state.map fun row => (row.sequence, row.head)).getD (0, genesis)

/-- The event that the next entry becomes. -/
def nextEvent (ledger : Ledger) (entry : Entry) : ReplayEvent :=
  ⟨entry.providerId, ledger.last.1 + 1, ledger.last.2, entry.runId, entry.nonce,
    entry.receiptSha256⟩

end Ledger

def Entry.acceptedRow (entry : Entry) : AcceptedRow :=
  ⟨entry.providerId, entry.keyId, entry.runId, entry.nonce, entry.receiptSha256⟩

def ReplayEvent.journalRow (event : ReplayEvent) (head : String) : JournalRow :=
  ⟨event.providerId, event.sequence, event.previousHead, head, event.runId, event.nonce,
    event.receiptSha256⟩

def Entry.evidenceRow (entry : Entry) (sequence : ℤ) (head : String) : EvidenceRow :=
  ⟨entry.providerId, sequence, entry.runId, entry.nonce, entry.receiptSha256, head,
    entry.dossierJson, entry.envelopeJson⟩

/-- A ledger with an entry more. -/
def Ledger.record (primitives : Primitives) (ledger : Ledger) (entry : Entry) : Ledger :=
  let event := ledger.nextEvent entry
  let head := primitives.eventHash event
  { accepted := ledger.accepted ++ [entry.acceptedRow]
    journal := ledger.journal ++ [event.journalRow head]
    evidence := ledger.evidence ++ [entry.evidenceRow event.sequence head]
    state := some ⟨entry.providerId, event.sequence, head⟩ }

/-- The ledger of some entries. -/
def Ledger.ofEntries (primitives : Primitives) (entries : List Entry) : Ledger :=
  entries.foldl (Ledger.record primitives) .empty

def Registry.ledgerOf (registry : Registry) (providerId : String) : Ledger :=
  ⟨registry.acceptedOf providerId, registry.journalOf providerId,
    registry.evidenceOf providerId, registry.state.lookup providerId⟩

/-- The journal of a provider leads to the head that its state names. -/
def Registry.Passes (primitives : Primitives) (registry : Registry) (providerId : String) :
    Prop :=
  ∀ state, registry.state.lookup providerId = some state →
    recompute primitives providerId 1 genesis (registry.journalInOrder providerId) =
      .ok (state.sequence + 1, state.head)

/-! ## The statements of a recording -/

section Recording

variable {primitives : Primitives} {registry after : Registry} {providerId : String}

/-- An insertion that did not raise has found room for its row. -/
theorem run_insertOrRaise_eq_ok {Rows : Type} (inserted : Option Rows)
    (update : Rows → Registry) {statement : Action Bool} {value : PUnit}
    (hstatement : statement.run execute registry =
      match inserted with
      | some rows => (.ok true, update rows)
      | none => (.ok false, registry))
    (hrun : (insertOrRaise statement).run execute registry = (.ok value, after)) :
    ∃ rows, inserted = some rows ∧ after = update rows := by
  obtain ⟨committed, between, hinserted, hcheck⟩ := Program.run_bind_eq_ok execute hrun
  obtain ⟨hcommitted, rfl⟩ := Program.run_raiseIf_eq_ok execute hcheck
  rw [hinserted] at hstatement
  cases inserted with
  | none => cases hstatement; exact absurd rfl hcommitted
  | some rows => exact ⟨rows, rfl, (Prod.mk.inj hstatement).2⟩

theorem run_insertAccepted_eq_ok {row : AcceptedRow} {value : PUnit}
    (hrun : (insertOrRaise (send (.insertAccepted row))).run execute registry =
      (.ok value, after)) :
    ∃ accepted, registry.accepted.insert? row = some accepted ∧
      after = { registry with accepted := accepted } := by
  apply run_insertOrRaise_eq_ok _ (fun accepted => { registry with accepted := accepted }) _ hrun
  cases hrow : registry.accepted.insert? row <;>
    simp [send, Program.call, execute, hrow]

theorem run_insertJournal_eq_ok {row : JournalRow} {value : PUnit}
    (hrun : (insertOrRaise (send (.insertJournal row))).run execute registry =
      (.ok value, after)) :
    ∃ journal, registry.journal.insert? row = some journal ∧
      after = { registry with journal := journal } := by
  apply run_insertOrRaise_eq_ok _ (fun journal => { registry with journal := journal }) _ hrun
  cases hrow : registry.journal.insert? row <;>
    simp [send, Program.call, execute, hrow]

theorem run_insertState_eq_ok {row : StateRow} {value : PUnit}
    (hrun : (insertOrRaise (send (.insertState row))).run execute registry =
      (.ok value, after)) :
    ∃ state, registry.state.insert? row = some state ∧
      after = { registry with state := state } := by
  apply run_insertOrRaise_eq_ok _ (fun state => { registry with state := state }) _ hrun
  cases hrow : registry.state.insert? row <;>
    simp [send, Program.call, execute, hrow]

theorem run_insertEvidence_eq_ok {row : EvidenceRow} {value : PUnit}
    (hrun : (insertOrRaise (send (.insertEvidence row))).run execute registry =
      (.ok value, after)) :
    ∃ evidence, registry.evidence.insert? row = some evidence ∧
      after = { registry with evidence := evidence } := by
  apply run_insertOrRaise_eq_ok _ (fun evidence => { registry with evidence := evidence }) _ hrun
  cases hrow : registry.evidence.insert? row <;>
    simp [send, Program.call, execute, hrow]

theorem lookup_upsertState (table : Table StateRow.providerId StateRow.providerId)
    (row : StateRow) (wanted : String) :
    (upsertState table row).lookup wanted =
      if row.providerId = wanted then some row else table.lookup wanted := by
  rw [upsertState]
  split
  case h_1 after hinsert => exact Table.lookup_insert? hinsert wanted
  case h_2 hinsert =>
    obtain ⟨old, hold⟩ := Option.isSome_iff_exists.mp
      (Table.lookup_isSome_of_insert?_eq_none hinsert fun _ hsame => hsame)
    rw [Table.lookup_modify]
    by_cases hwanted : wanted = row.providerId
    · subst hwanted
      have hkey : old.providerId = row.providerId := Table.key_of_lookup hold
      simp [hold, hkey]
    · rw [if_neg hwanted, if_neg (Ne.symm hwanted)]

/-! ## Appending an event -/

theorem run_requireNoLegacy_eq_ok {value : PUnit}
    (hrun : (requireNoLegacy providerId).run execute registry = (.ok value, after)) :
    after = registry := by
  obtain ⟨accepted, first, haccepted, hrest⟩ := Program.run_bind_eq_ok execute hrun
  obtain ⟨journal, second, hjournal, hcheck⟩ := Program.run_bind_eq_ok execute hrest
  obtain ⟨-, rfl⟩ := Program.run_raiseIf_eq_ok execute hcheck
  exact (Prod.mk.inj hjournal).2.symm.trans (Prod.mk.inj haccepted).2.symm

/-- The journal state that is appended to. -/
theorem run_journalTail_eq_ok {answer : ℤ × String}
    (hrun : (journalTail primitives providerId).run execute registry = (.ok answer, after)) :
    answer = (registry.ledgerOf providerId).last ∧ after = registry ∧
      registry.Passes primitives providerId := by
  obtain ⟨state, between, hstate, hrest⟩ := Program.run_bind_eq_ok execute hrun
  obtain ⟨hfound, rfl⟩ := Prod.mk.inj hstate
  have hlookup : registry.state.lookup providerId = state := Except.ok.inj hfound
  rw [Ledger.last, Registry.ledgerOf, Registry.Passes, hlookup]
  cases state with
  | none =>
      obtain ⟨_, between, hlegacy, hdone⟩ := Program.run_bind_eq_ok execute hrest
      obtain ⟨hanswer, rfl⟩ := Prod.mk.inj hdone
      exact ⟨(Except.ok.inj hanswer).symm, run_requireNoLegacy_eq_ok hlegacy,
        fun _ hmissing => by cases hmissing⟩
  | some row =>
      obtain ⟨_, first, hvalid, hselected⟩ := Program.run_bind_eq_ok execute hrest
      obtain ⟨-, rfl⟩ := Program.run_raiseIf_eq_ok execute hvalid
      obtain ⟨rows, second, hrows, hrecomputed⟩ := Program.run_bind_eq_ok execute hselected
      obtain ⟨recomputed, third, hcomputed, hchecked⟩ :=
        Program.run_bind_eq_ok execute hrecomputed
      obtain ⟨hpasses, rfl⟩ := Program.run_ofExcept_eq_ok execute hcomputed
      obtain ⟨_, fourth, hterminal, hdone⟩ := Program.run_bind_eq_ok execute hchecked
      obtain ⟨hends, rfl⟩ := Program.run_raiseIf_eq_ok execute hterminal
      obtain ⟨hanswer, rfl⟩ := Prod.mk.inj hdone
      obtain ⟨hjournal, rfl⟩ := Prod.mk.inj hrows
      refine ⟨(Except.ok.inj hanswer).symm, rfl, ?_⟩
      intro stored hstored
      obtain rfl := Option.some.inj hstored
      obtain rfl := Except.ok.inj hjournal
      exact hpasses.trans (congrArg Except.ok (not_not.mp hends))

/-- What the append of an event leaves. -/
theorem run_appendJournalEvent_eq_ok {runId nonce receiptSha256 : String}
    {answer : ℤ × String}
    (hrun : (appendJournalEvent primitives providerId runId nonce receiptSha256).run execute
      registry = (.ok answer, after)) :
    registry.Passes primitives providerId ∧ ∃ event journal,
      event = ⟨providerId, (registry.ledgerOf providerId).last.1 + 1,
        (registry.ledgerOf providerId).last.2, runId, nonce, receiptSha256⟩ ∧
      answer = (event.sequence, primitives.eventHash event) ∧
      registry.journal.insert? (event.journalRow (primitives.eventHash event)) = some journal ∧
      after = { registry with
        journal := journal
        state := upsertState registry.state
          ⟨providerId, event.sequence, primitives.eventHash event⟩ } := by
  obtain ⟨last, between, htail, hrest⟩ := Program.run_bind_eq_ok execute hrun
  obtain ⟨rfl, rfl, hpasses⟩ := run_journalTail_eq_ok htail
  obtain ⟨_, first, hinserted, hupserted⟩ := Program.run_bind_eq_ok execute hrest
  obtain ⟨journal, hjournal, rfl⟩ := run_insertJournal_eq_ok hinserted
  obtain ⟨hanswer, hafter⟩ := Prod.mk.inj hupserted
  exact ⟨hpasses, _, journal, rfl, (Except.ok.inj hanswer).symm, hjournal, hafter.symm⟩

/-! ## Recording an entry -/

theorem run_whenMissing_eq_ok {stored : Option StateRow} {action : Action PUnit} {value : PUnit}
    (hrun : (whenMissing stored action).run execute registry = (.ok value, after)) :
    (stored = none ∧ action.run execute registry = (.ok value, after)) ∨
      (stored ≠ none ∧ after = registry) := by
  rw [whenMissing] at hrun
  split at hrun
  case isTrue hmissing => exact Or.inl ⟨hmissing, hrun⟩
  case isFalse hstored => exact Or.inr ⟨hstored, (Prod.mk.inj hrun).2.symm⟩

/-- The state row of a new provider says what a missing one is taken for. -/
theorem run_insertMissingState_eq_ok {value : PUnit}
    (hrun : (whenMissing (registry.state.lookup providerId)
      (insertOrRaise (send (.insertState ⟨providerId, 0, genesis⟩)))).run execute registry =
        (.ok value, after)) :
    ∃ state, after = { registry with state := state } ∧
      (after.ledgerOf providerId).last = (registry.ledgerOf providerId).last ∧
      (∀ row, registry.state.lookup providerId = some row →
        state.lookup providerId = some row) ∧
      ∀ other, other ≠ providerId → state.lookup other = registry.state.lookup other := by
  rcases run_whenMissing_eq_ok hrun with ⟨hmissing, hinsert⟩ | ⟨-, hsame⟩
  · obtain ⟨state, hstate, rfl⟩ := run_insertState_eq_ok hinsert
    have hlookup := Table.lookup_insert? hstate
    refine ⟨state, rfl, ?_, ?_, ?_⟩
    · simp [Ledger.last, Registry.ledgerOf, hlookup, hmissing]
    · intro row hrow
      rw [hmissing] at hrow
      cases hrow
    · intro other hother
      rw [hlookup, if_neg (Ne.symm hother)]
  · exact ⟨registry.state, hsame, by rw [hsame], fun _ hrow => hrow, fun _ _ => rfl⟩

theorem run_finalizeCandidate_eq_ok {event : EvidenceRow} {candidateId : Option String}
    {value : PUnit}
    (hrun : (finalizeCandidate event candidateId).run execute registry = (.ok value, after)) :
    ∃ pending, after = { registry with pending := pending } := by
  cases candidateId with
  | none => exact ⟨registry.pending, (Prod.mk.inj hrun).2.symm⟩
  | some candidateId =>
      obtain ⟨finalized, between, hfinalized, hrest⟩ := Program.run_bind_eq_ok execute hrun
      cases finalized with
      | none => cases hrest
      | some count =>
          obtain ⟨-, rfl⟩ := Program.run_raiseIf_eq_ok execute hrest
          obtain ⟨-, rfl⟩ := Prod.mk.inj hfinalized
          rw [execute]
          cases registry.pending with
          | none => exact ⟨registry.pending, rfl⟩
          | some pending => exact ⟨_, rfl⟩

theorem run_canonicalText_eq_ok {value : Json} {text : String}
    (hrun : (Program.ofExcept (canonicalText primitives value) : Action String).run execute
      registry = (.ok text, after)) :
    primitives.attestations.dossiers.canonicalJson value = some text ∧ after = registry := by
  obtain ⟨hcanonical, hafter⟩ := Program.run_ofExcept_eq_ok execute hrun
  exact ⟨orRaise_eq_ok hcanonical, hafter⟩

theorem filter_concat {Row : Type} {owner : Row → String} {rows : List Row} {row : Row} :
    (rows ++ [row]).filter (fun other => owner other = providerId) =
      (rows.filter fun other => owner other = providerId) ++
        if owner row = providerId then [row] else [] := by
  by_cases howner : owner row = providerId <;> simp [List.filter_append, howner]

/-- Rows that were added for one entry. -/
theorem ledgerOf_record {entry : Entry} {event : ReplayEvent}
    (hevent : event = (registry.ledgerOf entry.providerId).nextEvent entry)
    (haccepted : after.accepted.rows = registry.accepted.rows ++ [entry.acceptedRow])
    (hjournal : after.journal.rows =
      registry.journal.rows ++ [event.journalRow (primitives.eventHash event)])
    (hevidence : after.evidence.rows =
      registry.evidence.rows ++ [entry.evidenceRow event.sequence (primitives.eventHash event)])
    (hstate : ∀ other, after.state.lookup other =
      if entry.providerId = other then
        some ⟨entry.providerId, event.sequence, primitives.eventHash event⟩
      else registry.state.lookup other) :
    after.ledgerOf providerId =
      if providerId = entry.providerId then
        (registry.ledgerOf providerId).record primitives entry
      else registry.ledgerOf providerId := by
  have howner : event.providerId = entry.providerId := by rw [hevent]; rfl
  rw [Registry.ledgerOf, Registry.acceptedOf, Registry.journalOf, Registry.evidenceOf, haccepted,
    hjournal, hevidence, hstate, filter_concat, filter_concat, filter_concat]
  by_cases hprovider : providerId = entry.providerId
  · subst hprovider
    rw [if_pos rfl, Ledger.record, ← hevent]
    simp [Registry.ledgerOf, Registry.acceptedOf, Registry.journalOf, Registry.evidenceOf,
      Entry.acceptedRow, Entry.evidenceRow, ReplayEvent.journalRow, howner]
  · have hother : entry.providerId ≠ providerId := Ne.symm hprovider
    simp [Registry.ledgerOf, Registry.acceptedOf, Registry.journalOf, Registry.evidenceOf,
      Entry.acceptedRow, Entry.evidenceRow, ReplayEvent.journalRow, howner, hprovider, hother]

/-- A recording adds an entry to the ledger of its provider. -/
theorem run_recordAttestation_eq_ok {call : RecordCall} {verified : VerifiedAttestation}
    {recorded : Recorded}
    (hverified : verifyIndependentRunnerAttestation primitives.attestations call.dossier.val
      call.envelope.val call.trustedPublicKeys = .ok verified)
    (hrun : (recordAttestation primitives call verified).run execute registry =
      (.ok recorded, after)) :
    ∃ entry, Entry.IsOf primitives call entry ∧
      registry.Passes primitives entry.providerId ∧
      ∀ providerId, after.ledgerOf providerId =
        if providerId = entry.providerId then
          (registry.ledgerOf providerId).record primitives entry
        else registry.ledgerOf providerId := by
  obtain ⟨stored, first, hselected, hrest⟩ := Program.run_bind_eq_ok execute hrun
  obtain ⟨hstored, rfl⟩ := Prod.mk.inj hselected
  have hlookup : registry.state.lookup verified.dossier.providerId = stored :=
    Except.ok.inj hstored
  subst hlookup
  obtain ⟨_, second, hlegacy, hexpecting⟩ := Program.run_bind_eq_ok execute hrest
  have hsecond : second = registry := by
    rcases run_whenMissing_eq_ok hlegacy with ⟨-, hcounted⟩ | ⟨-, hsame⟩
    · exact run_requireNoLegacy_eq_ok hcounted
    · exact hsame
  subst second
  obtain ⟨_, third, hexpected, hinitial⟩ := Program.run_bind_eq_ok execute hexpecting
  obtain ⟨-, hthird⟩ := Program.run_raiseIf_eq_ok execute hexpected
  subst third
  obtain ⟨_, fourth, hinitialized, haccepting⟩ := Program.run_bind_eq_ok execute hinitial
  obtain ⟨state, rfl, hlast, hkept, hothers⟩ := run_insertMissingState_eq_ok hinitialized
  obtain ⟨_, fifth, haccepted, happending⟩ := Program.run_bind_eq_ok execute haccepting
  obtain ⟨accepted, hacceptedRow, rfl⟩ := run_insertAccepted_eq_ok haccepted
  obtain ⟨appended, sixth, hevent, htexts⟩ := Program.run_bind_eq_ok execute happending
  obtain ⟨hpasses, event, journal, hnext, rfl, hjournalRow, rfl⟩ :=
    run_appendJournalEvent_eq_ok hevent
  obtain ⟨dossierJson, seventh, hdossier, henveloping⟩ := Program.run_bind_eq_ok execute htexts
  obtain ⟨hdossierJson, rfl⟩ := run_canonicalText_eq_ok hdossier
  obtain ⟨envelopeJson, eighth, henvelope, hevidencing⟩ :=
    Program.run_bind_eq_ok execute henveloping
  obtain ⟨henvelopeJson, rfl⟩ := run_canonicalText_eq_ok henvelope
  obtain ⟨_, ninth, hevidence, hfinalizing⟩ := Program.run_bind_eq_ok execute hevidencing
  obtain ⟨evidence, hevidenceRow, rfl⟩ := run_insertEvidence_eq_ok hevidence
  obtain ⟨_, tenth, hfinalized, hdone⟩ := Program.run_bind_eq_ok execute hfinalizing
  obtain ⟨pending, rfl⟩ := run_finalizeCandidate_eq_ok hfinalized
  obtain ⟨-, rfl⟩ := Prod.mk.inj hdone
  have hacceptedRows := (Table.insert?_eq_some_iff.mp hacceptedRow).2.2
  have hjournalRows := EventTable.rows_insert? hjournalRow
  have hevidenceRows := EventTable.rows_insert? hevidenceRow
  have hevent : event = (registry.ledgerOf verified.dossier.providerId).nextEvent
      ⟨verified.dossier.providerId, verified.keyId, verified.dossier.runId,
        verified.dossier.nonce, verified.receiptSha256, dossierJson, envelopeJson⟩ := by
    rw [hnext, Ledger.nextEvent, ← hlast]
    rfl
  refine ⟨_, ⟨verified, dossierJson, envelopeJson, hverified, hdossierJson, henvelopeJson, rfl⟩,
    fun row hrow => hpasses row (hkept row hrow),
    fun providerId => ledgerOf_record hevent hacceptedRows hjournalRows hevidenceRows ?_⟩
  intro other
  rw [lookup_upsertState]
  by_cases hother : verified.dossier.providerId = other
  · simp [hother]
  · simp [hother, hothers other (Ne.symm hother)]

/-! ## Runs -/

/-- What may happen to the database: a call, or a change of the pending table by
the code that stages candidates. -/
inductive Act
  | record (call : RecordCall)
  | stage (pending : Option (Table PendingRow.candidateId PendingRow.candidateId))

def step (primitives : Primitives) (registry : Registry) : Act → Registry
  | .record call => (verifyAndRecordAttestation primitives call registry).2
  | .stage pending => { registry with pending := pending }

/-- A call that raised has changed nothing. -/
theorem verifyAndRecordAttestation_eq_error {call : RecordCall} {error : Raised}
    (hraised : verifyAndRecordAttestation primitives call registry = (.error error, after)) :
    after = registry := by
  rw [verifyAndRecordAttestation] at hraised
  split at hraised
  case h_1 => exact (Prod.mk.inj hraised).2.symm
  case h_2 =>
    rw [transaction] at hraised
    split at hraised
    case h_1 => cases hraised
    case h_2 => exact (Prod.mk.inj hraised).2.symm

theorem verifyAndRecordAttestation_eq_ok {call : RecordCall} {recorded : Recorded}
    (hrecorded : verifyAndRecordAttestation primitives call registry = (.ok recorded, after)) :
    ∃ entry, Entry.IsOf primitives call entry ∧
      registry.Passes primitives entry.providerId ∧
      ∀ providerId, after.ledgerOf providerId =
        if providerId = entry.providerId then
          (registry.ledgerOf providerId).record primitives entry
        else registry.ledgerOf providerId := by
  rw [verifyAndRecordAttestation] at hrecorded
  split at hrecorded
  case h_1 => cases hrecorded
  case h_2 verified hverified =>
    rw [transaction] at hrecorded
    split at hrecorded
    case h_1 value committed hrun =>
      obtain ⟨-, rfl⟩ := Prod.mk.inj hrecorded
      exact run_recordAttestation_eq_ok hverified hrun
    case h_2 => cases hrecorded

/-- A step leaves a ledger as it is or adds the entry of the call. -/
theorem ledgerOf_step (registry : Registry) (act : Act) (providerId : String) :
    (step primitives registry act).ledgerOf providerId = registry.ledgerOf providerId ∨
      ∃ call entry, act = .record call ∧ Entry.IsOf primitives call entry ∧
        entry.providerId = providerId ∧ registry.Passes primitives providerId ∧
        (step primitives registry act).ledgerOf providerId =
          (registry.ledgerOf providerId).record primitives entry := by
  cases act with
  | stage pending => exact Or.inl rfl
  | record call =>
      cases hcall : verifyAndRecordAttestation primitives call registry with
      | mk result after =>
          have hstep : step primitives registry (.record call) = after := by
            rw [step, hcall]
          rw [hstep]
          cases result with
          | error error =>
              left
              rw [verifyAndRecordAttestation_eq_error hcall]
          | ok recorded =>
              obtain ⟨entry, hentry, hpasses, hledgers⟩ :=
                verifyAndRecordAttestation_eq_ok hcall
              rw [hledgers]
              by_cases hprovider : providerId = entry.providerId
              · rw [if_pos hprovider]
                exact Or.inr ⟨call, entry, rfl, hentry, hprovider.symm, hprovider ▸ hpasses, rfl⟩
              · exact Or.inl (if_neg hprovider)

theorem Ledger.ofEntries_concat (entries : List Entry) (entry : Entry) :
    ofEntries primitives (entries ++ [entry]) =
      (ofEntries primitives entries).record primitives entry := by
  simp [ofEntries]

/-- What the registry holds of a provider is the ledger of what was recorded. -/
theorem ledgerOf_run (primitives : Primitives) (acts : List Act) (providerId : String) :
    ∃ entries,
      (run (step primitives) .empty acts).ledgerOf providerId =
        Ledger.ofEntries primitives entries ∧
      ∀ entry ∈ entries, entry.providerId = providerId ∧
        ∃ call, .record call ∈ acts ∧ Entry.IsOf primitives call entry := by
  induction acts using List.reverseRecOn with
  | nil => exact ⟨[], rfl, fun _ hmem => nomatch hmem⟩
  | append_singleton earlier act ih =>
      obtain ⟨entries, hledger, hentries⟩ := ih
      have hearlier : ∀ entry ∈ entries, entry.providerId = providerId ∧
          ∃ call, .record call ∈ earlier ++ [act] ∧ Entry.IsOf primitives call entry := by
        intro entry hmem
        obtain ⟨hprovider, call, hcall, hentry⟩ := hentries entry hmem
        exact ⟨hprovider, call, List.mem_append_left _ hcall, hentry⟩
      rw [run_append]
      rcases ledgerOf_step (run (step primitives) .empty earlier) act providerId with
        hsame | ⟨call, entry, rfl, hentry, hprovider, -, hrecorded⟩
      · exact ⟨entries, hsame.trans hledger, hearlier⟩
      · refine ⟨entries ++ [entry], ?_, ?_⟩
        · rw [Ledger.ofEntries_concat, ← hledger]
          exact hrecorded
        · intro other hmem
          rcases List.mem_append.mp hmem with hold | hnew
          · exact hearlier other hold
          · rw [List.mem_singleton.mp hnew]
            exact ⟨hprovider, call, by simp, hentry⟩

/-! ## Consistency -/

/-- What all three records of an event say of its attestation. -/
structure Reservation where
  runId : String
  nonce : String
  receiptSha256 : String
  deriving DecidableEq, Repr

def AcceptedRow.reservation (row : AcceptedRow) : Reservation :=
  ⟨row.runId, row.nonce, row.receiptSha256⟩

def JournalRow.reservation (row : JournalRow) : Reservation :=
  ⟨row.runId, row.nonce, row.receiptSha256⟩

def EvidenceRow.reservation (row : EvidenceRow) : Reservation :=
  ⟨row.runId, row.nonce, row.receiptSha256⟩

/-- What an event of a provider commits to. -/
abbrev EventBody : Type := ℤ × Reservation

def eventDigest (primitives : Primitives) (providerId : String) (body : EventBody)
    (previous : String) : String :=
  primitives.eventHash
    ⟨providerId, body.1, previous, body.2.runId, body.2.nonce, body.2.receiptSha256⟩

def JournalRow.link (row : JournalRow) : Link EventBody String :=
  ⟨(row.sequence, row.reservation), row.previousHead, row.head⟩

/-- The records of a provider agree with its journal, which is a chain of the
events numbered from one. -/
structure Ledger.Consistent (primitives : Primitives) (providerId : String) (ledger : Ledger) :
    Prop where
  sequences : ledger.journal.map JournalRow.sequence =
    (List.range ledger.journal.length).map fun (index : ℕ) => (index : ℤ) + 1
  chain : Linked (eventDigest primitives providerId) genesis
    (ledger.journal.map JournalRow.link) ledger.last.2
  last : ledger.last.1 = ledger.journal.length
  accepted : ledger.accepted.map AcceptedRow.reservation =
    ledger.journal.map JournalRow.reservation
  evidence : (ledger.evidence.map fun row => (row.sequence, row.reservation, row.journalHead)) =
    ledger.journal.map fun row => (row.sequence, row.reservation, row.head)

theorem Ledger.Consistent.empty : Ledger.Consistent primitives providerId .empty :=
  ⟨rfl, rfl, rfl, rfl, rfl⟩

theorem Ledger.Consistent.record {ledger : Ledger} {entry : Entry}
    (hconsistent : ledger.Consistent primitives entry.providerId) :
    (ledger.record primitives entry).Consistent primitives entry.providerId where
  sequences := by
    simp [Ledger.record, Ledger.nextEvent, ReplayEvent.journalRow, hconsistent.sequences,
      hconsistent.last, List.range_succ]
  chain := by
    simp only [Ledger.record, List.map_append, List.map_singleton, Ledger.last, Option.map_some,
      Option.getD_some]
    exact hconsistent.chain.concat _
  last := by
    simp [Ledger.record, Ledger.nextEvent, Ledger.last, ← hconsistent.last]
  accepted := by
    simp [Ledger.record, Ledger.nextEvent, ReplayEvent.journalRow, Entry.acceptedRow,
      AcceptedRow.reservation, JournalRow.reservation, ← hconsistent.accepted]
  evidence := by
    simp only [Ledger.record, List.map_append, hconsistent.evidence]
    rfl

theorem Ledger.consistent_ofEntries {entries : List Entry}
    (hentries : ∀ entry ∈ entries, entry.providerId = providerId) :
    (Ledger.ofEntries primitives entries).Consistent primitives providerId := by
  induction entries using List.reverseRecOn with
  | nil => exact Ledger.Consistent.empty
  | append_singleton earlier entry ih =>
      rw [Ledger.ofEntries_concat]
      have hprovider : entry.providerId = providerId := hentries entry (by simp)
      subst hprovider
      exact (ih fun other hmem => hentries other (List.mem_append_left _ hmem)).record

/-! ## The tables -/

theorem nodup_column {Row A : Type} {owner : Row → String} {column : Row → A} {rows : List Row}
    (hnodup : (rows.map fun row => (owner row, column row)).Nodup) :
    ((rows.filter fun row => owner row = providerId).map column).Nodup := by
  apply List.Nodup.map_on _ ((hnodup.of_map _).filter _)
  intro left hleft right hright hcolumn
  obtain ⟨hleftMem, hleftOwner⟩ := List.mem_filter.mp hleft
  obtain ⟨hrightMem, hrightOwner⟩ := List.mem_filter.mp hright
  have howners : owner left = owner right :=
    (of_decide_eq_true hleftOwner).trans (of_decide_eq_true hrightOwner).symm
  exact List.inj_on_of_nodup_map hnodup hleftMem hrightMem (Prod.ext howners hcolumn)

/-- The tables agree on the events of the provider of a state row. -/
structure Registry.Agrees (primitives : Primitives) (registry : Registry) (state : StateRow) :
    Prop where
  /-- The journal has the sequences from one on. -/
  sequences : (registry.journalOf state.providerId).map JournalRow.sequence =
    (List.range (registry.journalOf state.providerId).length).map
      fun (index : ℕ) => (index : ℤ) + 1
  /-- Every head is the hash of its event, which names the head before it, and
  the state row holds the last one. -/
  chain : Linked (eventDigest primitives state.providerId) genesis
    ((registry.journalOf state.providerId).map JournalRow.link) state.head
  last : state.sequence = (registry.journalOf state.providerId).length
  /-- The accepted rows are the events of the journal, each once. -/
  accepted : (registry.acceptedOf state.providerId).map AcceptedRow.reservation =
    (registry.journalOf state.providerId).map JournalRow.reservation
  /-- So is the evidence, which names the sequence and the head too. -/
  evidence : ((registry.evidenceOf state.providerId).map fun row =>
      (row.sequence, row.reservation, row.journalHead)) =
    (registry.journalOf state.providerId).map fun row =>
      (row.sequence, row.reservation, row.head)
  runs : ((registry.journalOf state.providerId).map JournalRow.runId).Nodup
  nonces : ((registry.journalOf state.providerId).map JournalRow.nonce).Nodup

theorem Registry.agrees_of_consistent {state : StateRow}
    (hconsistent : (registry.ledgerOf state.providerId).Consistent primitives state.providerId)
    (hstate : registry.state.lookup state.providerId = some state) :
    registry.Agrees primitives state := by
  have hlast : (registry.ledgerOf state.providerId).last = (state.sequence, state.head) := by
    simp [Ledger.last, Registry.ledgerOf, hstate]
  exact {
    sequences := hconsistent.sequences
    chain := by
      have hchain := hconsistent.chain
      rw [hlast] at hchain
      exact hchain
    last := by
      have hsequence := hconsistent.last
      rw [hlast] at hsequence
      exact hsequence
    accepted := hconsistent.accepted
    evidence := hconsistent.evidence
    runs := nodup_column registry.journal.runs
    nonces := nodup_column registry.journal.nonces }

/-- A provider without a state row has no records. -/
theorem Ledger.eq_empty_of_state_eq_none {entries : List Entry}
    (hstate : (ofEntries primitives entries).state = none) :
    ofEntries primitives entries = .empty := by
  induction entries using List.reverseRecOn with
  | nil => rfl
  | append_singleton earlier entry _ =>
      rw [ofEntries_concat] at hstate
      cases hstate

/-- The invariant of the registry: after any calls, in any order and with any
changes of the pending table between them, the tables agree on every provider's
events, and a call that raises leaves them as they are. -/
theorem registry_agrees (primitives : Primitives) (acts : List Act) :
    let registry := run (step primitives) .empty acts
    (∀ providerId,
      match registry.state.lookup providerId with
      | some state => registry.Agrees primitives state
      | none => registry.ledgerOf providerId = .empty) ∧
    ∀ call error after, verifyAndRecordAttestation primitives call registry =
        (.error error, after) →
      after.accepted = registry.accepted ∧ after.journal = registry.journal ∧
        after.state = registry.state ∧ after.evidence = registry.evidence := by
  intro registry
  constructor
  · intro providerId
    obtain ⟨entries, hledger, hentries⟩ := ledgerOf_run primitives acts providerId
    have hconsistent : (registry.ledgerOf providerId).Consistent primitives providerId := by
      rw [hledger]
      exact Ledger.consistent_ofEntries fun entry hmem => (hentries entry hmem).1
    split
    case h_1 state hstate =>
      obtain rfl := Table.key_of_lookup hstate
      exact Registry.agrees_of_consistent hconsistent hstate
    case h_2 hstate =>
      rw [hledger]
      apply Ledger.eq_empty_of_state_eq_none
      rw [← hledger]
      exact hstate
  · intro call error after hraised
    rw [verifyAndRecordAttestation_eq_error hraised]
    exact ⟨rfl, rfl, rfl, rfl⟩

end Recording

/-! ## An attestation -/

namespace Sample

mutual

/-- The canonical JSON of a value whose texts need no escapes. -/
def encode : Json → List Char
  | .null => "null".toList
  | .bool value => if value then "true".toList else "false".toList
  | .int value => (toString value).toList
  | .float literal => literal.toList
  | .text value => '"' :: value.toList ++ ['"']
  | .array items => '[' :: encodeItems items ++ [']']
  | .object fields => '\x7b' :: encodeFields fields ++ ['\x7d']

def encodeItems : List Json → List Char
  | [] => []
  | [item] => encode item
  | item :: rest => encode item ++ ',' :: encodeItems rest

def encodeFields : List (String × Json) → List Char
  | [] => []
  | [field] => encodeField field
  | field :: rest => encodeField field ++ ',' :: encodeFields rest

def encodeField : String × Json → List Char
  | (key, value) => '"' :: key.toList ++ '"' :: ':' :: encode value

end

mutual

/-- `==` of values without floats. -/
def same : Json → Json → Bool
  | .null, .null => true
  | .bool left, .bool right => left = right
  | .int left, .int right => left = right
  | .text left, .text right => left = right
  | .array left, .array right => sameItems left right
  | .object left, .object right => sameFields left right
  | _, _ => false

def sameItems : List Json → List Json → Bool
  | [], [] => true
  | left :: lefts, right :: rights => same left right && sameItems lefts rights
  | _, _ => false

def sameFields : List (String × Json) → List (String × Json) → Bool
  | [], [] => true
  | left :: lefts, right :: rights => sameField left right && sameFields lefts rights
  | _, _ => false

def sameField : String × Json → String × Json → Bool
  | (leftKey, left), (rightKey, right) => leftKey = rightKey && same left right

end

/-- A digest that the attestation quotes. -/
def digest (character : Char) : Json := .text (String.ofList (List.replicate 64 character))

def argv : Json := .array [.text "pytest", .text "-q"]

def argvSha256 : String := "4cf1cf9743c2b32b29efc501eab2c095431d35da7ffba76b3d6ce971de0ccc6b"

def safety : Json := .object [
  ("historical_code_executed", .bool false),
  ("real_key_material_handled", .bool false),
  ("scope", .text "synthetic_only")]

def dossier : Json := .object [
  ("artifacts", .array []),
  ("command", .object [("argv", argv), ("argv_sha256", .text argvSha256)]),
  ("execution", .object [
    ("completed_at", .text "2026-10-12T06:00:03Z"),
    ("exit_code", .int 0),
    ("started_at", .text "2026-10-12T06:00:00Z"),
    ("test_passed", .bool true),
    ("timed_out", .bool false)]),
  ("experiment_id", .text "check-v1"),
  ("fixture", .object [("fixture_id", .text "fixture-1"), ("sha256", digest 'b')]),
  ("harness", .object [("build_recipe_sha256", digest 'd'), ("harness_sha256", digest 'c')]),
  ("nonce", .text "nonce-1"),
  ("result_sha256", digest 'e'),
  ("run_id", .text "run-1"),
  ("runner", .object [
    ("image_digest", .null),
    ("provider_id", .text "lab"),
    ("runner_id", .text "runner-1")]),
  ("safety", safety),
  ("schema_version", .text ExperimentDossier.schemaVersion),
  ("source", .object [
    ("repository", .text "AegisForge"),
    ("revision", .text (String.ofList (List.replicate 40 'a')))])]

def receipt : Json := .object [
  ("artifacts", .object [("items", .array [])]),
  ("execution", .object [
    ("completed_at", .text "2026-10-12T06:00:03Z"),
    ("exit_code", .int 0),
    ("result_sha256", digest 'e'),
    ("started_at", .text "2026-10-12T06:00:00Z"),
    ("test_passed", .bool true),
    ("timed_out", .bool false)]),
  ("experiment_id", .text "check-v1"),
  ("inputs", .object [
    ("argv", argv),
    ("argv_sha256", .text argvSha256),
    ("build_recipe_sha256", digest 'd'),
    ("fixture_id", .text "fixture-1"),
    ("fixture_sha256", digest 'b'),
    ("harness_sha256", digest 'c'),
    ("image_digest", .null),
    ("nonce", .text "nonce-1"),
    ("provider_id", .text "lab"),
    ("runner_id", .text "runner-1"),
    ("safety", safety),
    ("source_repository", .text "AegisForge"),
    ("source_revision", .text (String.ofList (List.replicate 40 'a')))]),
  ("receipt_type", .text "aegisforge.lab_execution"),
  ("run_id", .text "run-1"),
  ("schema_version", .int 1)]

def receiptSha256 : String := "49fa7f76d8a6c36001d593d49a9e0f923187225c2c262dd2f747bca7575cde86"

def keySha256 : String := "21fe31dfa154a261626bf854046fd2271b7bed4b6abe45aa58877ef47f9721b9"

def signatureText : String :=
  "WHLdzzt2QiD4QVaRcOE6hUtXnbk307SzhaFaIeUIpwckkKV+7HxeQcKMU677x70C3L3aNzVjjaBN1HAU3j1mAg=="

def envelope : Json := .object [
  ("algorithm", .text "Ed25519"),
  ("key_id", .text "key-1"),
  ("receipt", receipt),
  ("receipt_sha256", .text receiptSha256),
  ("schema_version", .int 1),
  ("signature", .text signatureText),
  ("signer_public_key_sha256", .text keySha256)]

def publicKey : Bytes :=
  [0xd7, 0x5a, 0x98, 0x01, 0x82, 0xb1, 0x0a, 0xb7, 0xd5, 0x4b, 0xfe, 0xd3, 0xc9, 0x64, 0x07, 0x3a,
    0x0e, 0xe1, 0x72, 0xf3, 0xda, 0xa6, 0x23, 0x25, 0xaf, 0x02, 0x1a, 0x68, 0xf7, 0x07, 0x51, 0x1a]

def signature : Bytes :=
  [0x58, 0x72, 0xdd, 0xcf, 0x3b, 0x76, 0x42, 0x20, 0xf8, 0x41, 0x56, 0x91, 0x70, 0xe1, 0x3a, 0x85,
    0x4b, 0x57, 0x9d, 0xb9, 0x37, 0xd3, 0xb4, 0xb3, 0x85, 0xa1, 0x5a, 0x21, 0xe5, 0x08, 0xa7, 0x07,
    0x24, 0x90, 0xa5, 0x7e, 0xec, 0x7c, 0x5e, 0x41, 0xc2, 0x8c, 0x53, 0xae, 0xfb, 0xc7, 0xbd, 0x02,
    0xdc, 0xbd, 0xda, 0x37, 0x35, 0x63, 0x8d, 0xa0, 0x4d, 0xd4, 0x70, 0x14, 0xde, 0x3d, 0x66, 0x02]

/-- SHA-256 of what the attestation hashes, which a byte tells apart. -/
def sha256 (bytes : Bytes) : String :=
  if bytes = publicKey then keySha256
  else
    match (bytes.drop 13).head? with
    | some 0x7b => receiptSha256
    | some 0x5b => "a8ae8382a4f105f8b67d0683eaf8d7f6cc7c02d480a95eb392ae1d47eb1d9bf7"
    | _ => argvSha256

def event : ReplayEvent := ⟨"lab", 1, genesis, "run-1", "nonce-1", receiptSha256⟩

def eventHead : String := "b13aa7474d2439629e3833175f0f0a221c6f039f1d0eb5759f53ba8b1da78639"

def loads (text : String) : Option Json :=
  if text = String.ofList (encode dossier) then some dossier
  else if text = String.ofList (encode envelope) then some envelope else none

def primitives : Primitives where
  attestations :=
    { dossiers :=
        { canonicalJson := fun value => some (String.ofList (encode value))
          sha256 := sha256
          fromIsoFormat := fun text =>
            if text = "2026-10-12T06:00:00Z" then some (seconds 1791784800)
            else if text = "2026-10-12T06:00:03Z" then some (seconds 1791784803) else none }
      receipts :=
        { canonicalJson := fun value =>
            some ((encode value).map fun character => UInt8.ofNat character.toNat)
          sha256 := sha256
          decodeBase64 := fun text => if text = signatureText then some signature else none
          signatureValid := fun key signed _ => key = publicKey && signed = signature }
      equal := same }
  eventHash := fun hashed =>
    if hashed = event then eventHead else String.ofList (List.replicate 64 'f')
  loads := loads

theorem isCanonical_dossier : dossier.IsCanonical := by
  simp [-String.lt_iff_ltb, dossier, argv, digest, safety]

theorem isCanonical_envelope : envelope.IsCanonical := by
  simp [-String.lt_iff_ltb, envelope, receipt, argv, digest, safety]

def call : RecordCall where
  dossier := ⟨dossier, isCanonical_dossier⟩
  envelope := ⟨envelope, isCanonical_envelope⟩
  trustedPublicKeys := fun keyId => if keyId = "key-1" then some publicKey else none

/-- A call without a dossier. -/
def emptyCall : RecordCall := { call with dossier := ⟨.null, .null⟩ }

theorem lookup_recorded :
    (run (step primitives) .empty [.record call]).state.lookup "lab" =
      some ⟨"lab", 1, eventHead⟩ := by
  decide +kernel

theorem emptyCall_raises (registry : Registry) :
    verifyAndRecordAttestation primitives emptyCall registry =
      (.error (registryError "attestation_invalid:dossier_must_be_object"), registry) := rfl

end Sample

open Sample in
theorem registry_agrees_sample :
    let registry := run (step primitives) .empty [.record call]
    registry.Agrees primitives ⟨"lab", 1, eventHead⟩ ∧
      (verifyAndRecordAttestation primitives emptyCall registry).2.journal = registry.journal := by
  have hagrees := registry_agrees primitives [.record call]
  constructor
  · have hlab := hagrees.1 "lab"
    rw [lookup_recorded] at hlab
    exact hlab
  · exact (hagrees.2 emptyCall _ _ (emptyCall_raises _)).2.1

end AegisForge.Shared.ReplayRegistry
