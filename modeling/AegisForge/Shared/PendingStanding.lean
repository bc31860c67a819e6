import AegisForge.Concurrency.StagedAdvance
import AegisForge.Shared.AnchoredJournal
import AegisForge.Shared.PendingAnchoredReplay

/-!
# The pending registry as a staged advance

The anchor is the authority, the local journal follows it, and the pending rows
are the candidates.  Every statement is a change of that standing, given what a
call has established before it.
-/

namespace AegisForge.Shared.PendingAnchoredReplay

open AegisForge.Core AegisForge.Concurrency
open IndependentRunnerAttestation (verifyIndependentRunnerAttestation)
open ReplayRegistry (Ledger PendingRow PendingStatus Registry Recorded ReplayEvent
  verifyAndRecordAttestation genesis)
open AnchoredAttestationReplay (Delivery Finalizes)
open StagedAdvance (Change)

/-! ## The standing -/

def statusOf : PendingStatus → StagedAdvance.Status
  | .prepared => .prepared
  | .conflict => .conflict
  | .finalized => .finalized

/-- What a pending row proposes. -/
def Candidate.proposal (candidate : Candidate) : StagedAdvance.Candidate String String :=
  ⟨candidate.row.providerId, candidate.prior, candidate.point, statusOf candidate.row.status⟩

/-- The event that a candidate becomes. -/
def Candidate.event (candidate : Candidate) : ReplayEvent :=
  ⟨candidate.row.providerId, candidate.row.candidateSequence, candidate.columns.expectedHead,
    candidate.row.runId, candidate.row.nonce, candidate.row.receiptSha256⟩

def origin : ℤ × String := (0, genesis)

/-- The points of a journal. -/
def pointsOf (ledger : Ledger) : Set (ℤ × String) :=
  {point | ∃ row ∈ ledger.journal, (row.sequence, row.head) = point}

def World.standing (world : World) : StagedAdvance.Standing String String String where
  authority := fun providerId =>
    (world.anchors.lookup providerId).map fun row => (row.sequence, row.headSha256)
  last := fun providerId => (world.registry.ledgerOf providerId).last
  accepted := fun providerId => pointsOf (world.registry.ledgerOf providerId)
  staged := fun candidateId => (world.candidate? candidateId).map Candidate.proposal

variable {primitives : Primitives} {world : World} {candidate : Candidate}
variable {candidateId providerId : String} {status : PendingStatus}

theorem staged_standing (hcandidate : world.candidate? candidateId = some candidate) :
    world.standing.staged candidateId = some candidate.proposal :=
  congrArg (Option.map Candidate.proposal) hcandidate

theorem candidate?_of_staged {proposal : StagedAdvance.Candidate String String}
    (hstaged : world.standing.staged candidateId = some proposal) :
    ∃ candidate, world.candidate? candidateId = some candidate ∧
      candidate.proposal = proposal :=
  Option.map_eq_some_iff.mp hstaged

/-! ## Rows -/

/-- The row of a candidate without its columns. -/
def World.row? (world : World) (candidateId : String) : Option PendingRow :=
  world.registry.pending.bind fun pending => pending.lookup candidateId

theorem candidate?_eq (world : World) (candidateId : String) :
    world.candidate? candidateId =
      (world.row? candidateId).bind fun row =>
        (world.columns candidateId).map fun columns => ⟨row, columns⟩ := by
  rw [World.candidate?, World.row?]
  cases world.registry.pending with
  | none => rfl
  | some pending =>
      cases hrow : pending.lookup candidateId with
      | none => simp [hrow]
      | some row => cases world.columns candidateId <;> simp [hrow]

theorem candidate?_eq_some_iff :
    world.candidate? candidateId = some candidate ↔
      world.row? candidateId = some candidate.row ∧
        world.columns candidateId = some candidate.columns := by
  rw [candidate?_eq]
  cases hrow : world.row? candidateId with
  | none => simp
  | some row =>
      cases hcolumns : world.columns candidateId with
      | none => simp
      | some columns =>
          cases candidate
          simp

theorem candidateId_of_row? {row : PendingRow} (hrow : world.row? candidateId = some row) :
    row.candidateId = candidateId := by
  obtain ⟨pending, -, hlookup⟩ := Option.bind_eq_some_iff.mp hrow
  exact Table.key_of_lookup hlookup

theorem row?_ensurePending (candidateId : String) :
    world.ensurePending.row? candidateId = world.row? candidateId := by
  change (some (world.registry.pending.getD .empty)).bind _ = world.registry.pending.bind _
  cases world.registry.pending with
  | none => rfl
  | some pending => rfl

theorem staged_of_rows {before after : World}
    (hrows : ∀ candidateId, after.row? candidateId = before.row? candidateId)
    (hcolumns : after.columns = before.columns) :
    after.standing.staged = before.standing.staged := by
  funext candidateId
  change (after.candidate? candidateId).map _ = (before.candidate? candidateId).map _
  rw [candidate?_eq, candidate?_eq, hrows, hcolumns]

theorem standing_ensurePending : world.ensurePending.standing = world.standing :=
  StagedAdvance.Standing.ext rfl rfl rfl (staged_of_rows row?_ensurePending rfl)

def Candidate.withStatus (candidate : Candidate) (status : PendingStatus) : Candidate :=
  { candidate with row := restatus status candidate.row }

theorem row?_setStatus (status : PendingStatus) (other : String) :
    (world.setStatus candidateId status).row? other =
      if other = candidateId then
        (world.row? candidateId).map (restatus status)
      else world.row? other := by
  change (world.registry.pending.map _).bind _ = _
  rw [World.row?, World.row?]
  cases world.registry.pending with
  | none => simp
  | some pending => exact Table.lookup_modify pending candidateId other

theorem candidate?_setStatus (status : PendingStatus) (other : String) :
    (world.setStatus candidateId status).candidate? other =
      if other = candidateId then
        (world.candidate? candidateId).map fun candidate => candidate.withStatus status
      else world.candidate? other := by
  rw [candidate?_eq, row?_setStatus]
  split
  case isTrue hother =>
    subst hother
    rw [candidate?_eq]
    cases world.row? other with
    | none => rfl
    | some row =>
        change (world.columns other).map _ = Option.map _ ((world.columns other).map _)
        cases world.columns other <;> rfl
  case isFalse => rw [candidate?_eq]; rfl

theorem standing_setStatus (status : PendingStatus)
    (hcandidate : world.candidate? candidateId = some candidate) :
    (world.setStatus candidateId status).standing =
      world.standing.stage candidateId (candidate.withStatus status).proposal := by
  refine StagedAdvance.Standing.ext rfl rfl rfl (funext fun other => ?_)
  change ((world.setStatus candidateId status).candidate? other).map _ =
    Function.update world.standing.staged candidateId _ other
  rw [candidate?_setStatus]
  split
  case isTrue hother =>
    subst hother
    rw [Function.update_self, hcandidate]
    rfl
  case isFalse hother =>
    rw [Function.update_of_ne hother]
    rfl

/-! ## What a call establishes before a statement -/

/-- What holds before a statement is executed. -/
def Requires (primitives : Primitives) (statement : Statement) (world : World) : Prop :=
  match statement with
  | .anchored (.compareAndSetAnchor request _) =>
      ∃ candidateId candidate, world.candidate? candidateId = some candidate ∧
        candidate.request = request
  | .anchored (.record call) =>
      ∃ candidateId candidate, world.candidate? candidateId = some candidate ∧
        call.expectedJournalState = some candidate.prior ∧
        call.finalizePendingCandidateId = some candidateId ∧
        world.standing.HasPassed candidate.row.providerId candidate.point ∧
        ∀ verified, verifyIndependentRunnerAttestation primitives.attestations call.dossier.val
            call.envelope.val call.trustedPublicKeys = .ok verified →
          verified.dossier.providerId = candidate.row.providerId
  | .persistPending candidate =>
      candidate.row.status = .prepared ∧ candidate.point.1 = candidate.prior.1 + 1 ∧
        candidate.row.candidateHead = primitives.eventHash candidate.event
  | .markConflict candidateId =>
      ∃ candidate, world.candidate? candidateId = some candidate ∧
        world.standing.Missed candidate.row.providerId candidate.point
  | _ => True

/-- What holds of the database at all times. -/
structure Sound (primitives : Primitives) (world : World) : Prop where
  ledgers : ∀ providerId, (world.registry.ledgerOf providerId).Consistent
    primitives.toRecovery.toPrimitives providerId
  columned : ∀ candidateId row, world.row? candidateId = some row →
    (world.columns candidateId).isSome = true
  hashed : ∀ candidateId candidate, world.candidate? candidateId = some candidate →
    candidate.row.candidateHead = primitives.eventHash candidate.event
  kept : world.standing.Kept origin

/-! ## The anchor -/

section Anchor

variable {anchors : Tools.ReplayAnchor.AnchorTable}

/-- The database beside other anchors. -/
def World.withAnchors (world : World) (anchors : Tools.ReplayAnchor.AnchorTable) : World :=
  { world with toWorld := ⟨world.registry, anchors⟩ }

theorem standing_withAnchors
    (hsame : ∀ providerId, anchors.lookup providerId = world.anchors.lookup providerId) :
    (world.withAnchors anchors).standing = world.standing :=
  StagedAdvance.Standing.ext
    (funext fun providerId => congrArg (Option.map _) (hsame providerId)) rfl rfl rfl

theorem standing_authorize {row : Tools.ReplayAnchor.AnchorRow}
    (hself : anchors.lookup providerId = some row)
    (hrest : ∀ other, other ≠ providerId → anchors.lookup other = world.anchors.lookup other) :
    (world.withAnchors anchors).standing =
      world.standing.authorize providerId (row.sequence, row.headSha256) := by
  refine StagedAdvance.Standing.ext (funext fun other => ?_) rfl rfl rfl
  by_cases hother : other = providerId
  · subst hother
    rw [StagedAdvance.Standing.authority_authorize_self]
    exact congrArg (Option.map _) hself
  · rw [StagedAdvance.Standing.authority_authorize_of_ne hother]
    exact congrArg (Option.map _) (hrest other hother)

theorem lookup_insertAnchor_of_ne {provided other : String} (faulty : Bool)
    (anchors : Tools.ReplayAnchor.AnchorTable) (hother : other ≠ provided) :
    (Tools.ReplayAnchor.insertAnchor provided faulty anchors).2.lookup other =
      anchors.lookup other := by
  rw [Tools.ReplayAnchor.insertAnchor]
  split
  · rfl
  · cases hinsert : anchors.insert? ⟨provided, 0, Tools.ReplayAnchor.genesis⟩ with
    | none => rfl
    | some after => exact (Table.lookup_insert? hinsert other).trans (if_neg (Ne.symm hother))

theorem change_provision (provided : String) (faulty : Bool) :
    Change origin world.standing (world.withAnchors
      (Tools.ReplayAnchor.insertAnchor provided faulty world.anchors).2).standing := by
  rcases Tools.ReplayAnchor.lookup_insertAnchor provided faulty world.anchors provided with
    hsame | ⟨hmissing, hnew⟩
  · rw [standing_withAnchors fun other => ?_]
    · exact Change.same
    · by_cases hother : other = provided
      · subst hother
        exact hsame
      · exact lookup_insertAnchor_of_ne faulty world.anchors hother
  · rw [standing_authorize hnew fun other => lookup_insertAnchor_of_ne faulty world.anchors]
    exact Change.provision (congrArg (Option.map _) hmissing)

theorem change_compareAndSetAnchor {request : Tools.ReplayAnchor.CasRequest} {delivery : Delivery}
    (hrequires : Requires primitives (.anchored (.compareAndSetAnchor request delivery)) world) :
    Change origin world.standing (world.withAnchors
      (AnchoredAttestationReplay.compareAndSetAnchor request delivery world.anchors).2).standing := by
  obtain ⟨candidateId, candidate, hcandidate, rfl⟩ := hrequires
  have hrest : ∀ other, other ≠ candidate.row.providerId →
      (AnchoredAttestationReplay.compareAndSetAnchor candidate.request delivery
        world.anchors).2.lookup other = world.anchors.lookup other := by
    intro other hother
    rcases AnchoredAttestationReplay.lookup_compareAndSetAnchor candidate.request delivery
      world.anchors other with hsame | ⟨hprovider, -⟩
    · exact hsame
    · exact absurd hprovider.symm hother
  rcases AnchoredAttestationReplay.lookup_compareAndSetAnchor candidate.request delivery
    world.anchors candidate.row.providerId with
    hsame | ⟨-, -, row, hrow, hsequence, hhead, hafter⟩
  · rw [standing_withAnchors fun other => ?_]
    · exact Change.same
    · by_cases hother : other = candidate.row.providerId
      · subst hother
        exact hsame
      · exact hrest other hother
  · rw [standing_authorize hafter hrest]
    refine Change.publish (staged_standing hcandidate) ?_
    change (world.anchors.lookup candidate.row.providerId).map _ = _
    rw [hrow]
    exact congrArg some (Prod.ext hsequence hhead)

end Anchor

/-! ## The pending rows -/

/-- The state inside the transaction is the last point of the journal. -/
theorem currentState_eq_ok {registry : Registry} {current : ℤ × String}
    (hcurrent : currentState registry providerId = .ok current) :
    current = (registry.ledgerOf providerId).last := by
  rw [currentState] at hcurrent
  change current = ((registry.state.lookup providerId).map _).getD (0, genesis)
  cases hlookup : registry.state.lookup providerId with
  | none =>
      rw [hlookup] at hcurrent
      dsimp only at hcurrent
      split at hcurrent
      case isTrue => cases hcurrent
      case isFalse => exact (Except.ok.inj hcurrent).symm
  | some row =>
      rw [hlookup] at hcurrent
      exact (Except.ok.inj hcurrent).symm

/-- The database in which a candidate is staged. -/
structure Stages (candidate : Candidate) (before after : World) : Prop where
  fresh : before.row? candidate.row.candidateId = none
  anchors : after.anchors = before.anchors
  ledgers : ∀ other, after.registry.ledgerOf other = before.registry.ledgerOf other
  rows : ∀ other, after.row? other =
    if candidate.row.candidateId = other then some candidate.row else before.row? other
  columns : after.columns =
    Function.update before.columns candidate.row.candidateId (some candidate.columns)

/-- What the transaction that stages a candidate has done. -/
theorem stage_eq_ok {after : World} (hstage : stage candidate world.ensurePending = .ok after) :
    candidate.prior = (world.registry.ledgerOf candidate.row.providerId).last ∧
      ((∃ existing, world.row? candidate.row.candidateId = some existing ∧
          existing.candidateHead = candidate.row.candidateHead ∧ after = world.ensurePending) ∨
        Stages candidate world after) := by
  have hrows : ∀ other,
      (world.registry.pending.getD .empty).lookup other = world.row? other := by
    intro other
    rw [World.row?]
    cases world.registry.pending <;> rfl
  obtain ⟨current, hcurrent, hrest⟩ := bind_eq_ok hstage
  obtain ⟨hprior, hrest⟩ := raiseUnless_bind_eq_ok hrest
  obtain ⟨-, hrest⟩ := raiseUnless_bind_eq_ok hrest
  refine ⟨hprior.symm.trans (currentState_eq_ok hcurrent), ?_⟩
  split at hrest
  case h_1 existing hlookup =>
    obtain ⟨hhead, hrest⟩ := raiseUnless_bind_eq_ok hrest
    obtain ⟨-, hrest⟩ := raiseUnless_bind_eq_ok hrest
    exact Or.inl ⟨existing, (hrows _).symm.trans hlookup, hhead, (Except.ok.inj hrest).symm⟩
  case h_2 hlookup =>
    split at hrest
    case h_1 => cases hrest
    case h_2 =>
      obtain ⟨pending, hinsert, hrest⟩ := orRaise_bind_eq_ok hrest
      obtain rfl := Except.ok.inj hrest
      refine Or.inr ⟨(hrows _).symm.trans hlookup, rfl, fun _ => rfl, fun other => ?_, rfl⟩
      rw [← hrows other]
      exact Table.lookup_insert? hinsert other

/-- Staging raises, finds the candidate, or stages it. -/
theorem persistPending_cases (candidate : Candidate) (world : World) :
    (∃ error, persistPending candidate world = (.error error, world.ensurePending)) ∨
      candidate.prior = (world.registry.ledgerOf candidate.row.providerId).last ∧
        ((∃ existing, world.row? candidate.row.candidateId = some existing ∧
            existing.candidateHead = candidate.row.candidateHead ∧
            persistPending candidate world = (.ok (), world.ensurePending)) ∨
          ∃ after, Stages candidate world after ∧
            persistPending candidate world = (.ok (), after)) := by
  rw [persistPending]
  cases hstage : stage candidate world.ensurePending with
  | error error => exact Or.inl ⟨error, rfl⟩
  | ok after =>
      obtain ⟨hprior, ⟨existing, hexisting, hhead, rfl⟩ | hstages⟩ := stage_eq_ok hstage
      · exact Or.inr ⟨hprior, Or.inl ⟨existing, hexisting, hhead, rfl⟩⟩
      · exact Or.inr ⟨hprior, Or.inr ⟨after, hstages, rfl⟩⟩

theorem Stages.candidate? {after : World} (hstages : Stages candidate world after)
    (other : String) :
    after.candidate? other =
      if other = candidate.row.candidateId then some candidate else world.candidate? other := by
  rw [candidate?_eq, hstages.rows, hstages.columns]
  by_cases hother : other = candidate.row.candidateId
  · subst hother
    rw [if_pos rfl, if_pos rfl, Function.update_self]
    rfl
  · rw [if_neg (Ne.symm hother), if_neg hother, Function.update_of_ne hother, candidate?_eq]

theorem Stages.standing {after : World} (hstages : Stages candidate world after) :
    after.standing = world.standing.stage candidate.row.candidateId candidate.proposal := by
  refine StagedAdvance.Standing.ext (funext fun providerId => ?_)
    (funext fun providerId => congrArg Ledger.last (hstages.ledgers providerId))
    (funext fun providerId => congrArg pointsOf (hstages.ledgers providerId))
    (funext fun other => ?_)
  · change (after.anchors.lookup providerId).map _ = _
    rw [hstages.anchors]
    rfl
  · change (after.candidate? other).map _ =
      Function.update world.standing.staged candidate.row.candidateId _ other
    rw [hstages.candidate?]
    by_cases hother : other = candidate.row.candidateId
    · subst hother
      rw [if_pos rfl, Function.update_self]
      rfl
    · rw [if_neg hother, Function.update_of_ne hother]
      rfl

theorem change_persistPending (hrequires : Requires primitives (.persistPending candidate) world) :
    Change origin world.standing (persistPending candidate world).2.standing := by
  obtain ⟨hstatus, hnext, -⟩ := hrequires
  rcases persistPending_cases candidate world with
    ⟨error, hraised⟩ | ⟨hprior, ⟨existing, -, -, hfound⟩ | ⟨after, hstages, hstaged⟩⟩
  · rw [hraised, standing_ensurePending]
    exact Change.same
  · rw [hfound, standing_ensurePending]
    exact Change.same
  · rw [hstaged, hstages.standing]
    refine Change.stage ?_ hprior hnext (congrArg statusOf hstatus)
    change (world.candidate? candidate.row.candidateId).map _ = none
    rw [candidate?_eq, hstages.fresh]
    rfl

theorem change_markConflict (hrequires : Requires primitives (.markConflict candidateId) world) :
    Change origin world.standing (world.setStatus candidateId .conflict).standing := by
  obtain ⟨candidate, hcandidate, hmissed⟩ := hrequires
  rw [standing_setStatus _ hcandidate]
  exact Change.quarantine (staged_standing hcandidate) hmissed

/-! ## Finalization -/

/-- The evidence of an event is that of a point of the journal. -/
theorem mem_pointsOf_of_evidence {ledger : Ledger} {evidence : ReplayRegistry.EvidenceRow}
    (hconsistent : ledger.Consistent primitives.toRecovery.toPrimitives providerId)
    (hevidence : evidence ∈ ledger.evidence) :
    (evidence.sequence, evidence.journalHead) ∈ pointsOf ledger := by
  have hmem := List.mem_map_of_mem (f := fun row : ReplayRegistry.EvidenceRow =>
    (row.sequence, row.reservation, row.journalHead)) hevidence
  rw [hconsistent.evidence] at hmem
  obtain ⟨row, hrow, hsame⟩ := List.mem_map.mp hmem
  refine ⟨row, hrow, ?_⟩
  simp only [Prod.mk.injEq] at hsame
  exact Prod.ext hsame.1 hsame.2.2

/-- A finalization of an event that the journal has already either raises, or has found
its evidence and its row. -/
theorem finalizeStored_cases (row : PendingRow) (world : World) :
    (∃ error, finalizeStored row world = (.error error, world)) ∨
      (∃ evidence ∈ (world.registry.ledgerOf row.providerId).evidence,
          (evidence.sequence, evidence.journalHead) = (row.candidateSequence, row.candidateHead)) ∧
        (∃ stored, world.row? row.candidateId = some stored ∧ isOpenRow row stored = true) ∧
        finalizeStored row world = (.ok (), world.setStatus row.candidateId .finalized) := by
  rw [finalizeStored]
  split
  case isTrue => exact Or.inl ⟨_, rfl⟩
  case isFalse hevidence =>
    split
    case isTrue => exact Or.inl ⟨_, rfl⟩
    case isFalse hopen =>
      obtain ⟨evidence, hmem, hmatches⟩ := List.any_eq_true.mp (Bool.not_eq_false _ ▸ hevidence)
      simp only [Bool.and_eq_true, decide_eq_true_eq] at hmatches
      exact Or.inr ⟨⟨evidence, hmem, Prod.ext hmatches.1.1.1.1 hmatches.2⟩,
        (Option.any_eq_true _ _).mp (Bool.not_eq_false _ ▸ hopen), rfl⟩

theorem isOpenRow_eq_true {row stored : PendingRow} (hopen : isOpenRow row stored = true) :
    stored.providerId = row.providerId ∧ stored.candidateSequence = row.candidateSequence ∧
      stored.candidateHead = row.candidateHead := by
  simp only [isOpenRow, Bool.and_eq_true, decide_eq_true_eq] at hopen
  exact ⟨hopen.1.1.1.1.1.1.2, hopen.1.1.2, hopen.1.2⟩

theorem change_finalizeStored (row : PendingRow) (hsound : Sound primitives world) :
    Change origin world.standing (finalizeStored row world).2.standing := by
  rcases finalizeStored_cases row world with
    ⟨error, hraised⟩ | ⟨⟨evidence, hmem, hpoint⟩, ⟨stored, hrow, hopen⟩, hdone⟩
  · rw [hraised]
    exact Change.same
  · obtain ⟨columns, hcolumns⟩ := Option.isSome_iff_exists.mp (hsound.columned _ stored hrow)
    have hcandidate : world.candidate? row.candidateId = some ⟨stored, columns⟩ :=
      candidate?_eq_some_iff.mpr ⟨hrow, hcolumns⟩
    obtain ⟨hprovider, hsequence, hhead⟩ := isOpenRow_eq_true hopen
    rw [hdone, standing_setStatus _ hcandidate]
    refine Change.confirm (staged_standing hcandidate) ?_
    change (stored.candidateSequence, stored.candidateHead) ∈
      pointsOf (world.registry.ledgerOf stored.providerId)
    rw [hprovider, hsequence, hhead, ← hpoint]
    exact mem_pointsOf_of_evidence (hsound.ledgers row.providerId) hmem

/-! ## Recording -/

theorem pointsOf_record {ledger : Ledger} (entry : ReplayRegistry.Entry) :
    pointsOf (ledger.record primitives.toRecovery.toPrimitives entry) =
      insert (ledger.record primitives.toRecovery.toPrimitives entry).last (pointsOf ledger) := by
  ext point
  constructor
  · rintro ⟨row, hrow, rfl⟩
    rcases List.mem_append.mp hrow with hold | hnew
    · exact Or.inr ⟨row, hold, rfl⟩
    · rw [List.mem_singleton.mp hnew]
      exact Or.inl rfl
  · rintro (rfl | ⟨row, hrow, rfl⟩)
    · exact ⟨_, List.mem_append_right _ (List.mem_singleton_self _), rfl⟩
    · exact ⟨row, List.mem_append_left _ hrow, rfl⟩

/-- The acceptance of a candidate's event finalizes its row. -/
theorem row?_finalizes {after : World} {recorded : Recorded}
    (hcandidate : world.candidate? candidateId = some candidate)
    (hfinalizes : Finalizes world.registry after.registry candidateId recorded) :
    candidate.point = (recorded.sequence, recorded.head) ∧
      ∀ other, after.row? other = (world.setStatus candidateId .finalized).row? other := by
  obtain ⟨pending, event, hpending, -, hsequence, hhead, ⟨row, hmem, hfinalizable⟩, hafter⟩ :=
    hfinalizes
  have hmatches := hfinalizable
  simp only [PendingRow.isFinalizable, Bool.and_eq_true, decide_eq_true_eq] at hmatches
  have hlookup : pending.lookup candidateId = some row := by
    rw [← hmatches.1.1.1.1.1.1.1]
    exact Table.lookup_of_mem hmem
  have hrow : row = candidate.row := by
    have hfound := (candidate?_eq_some_iff.mp hcandidate).1
    rw [World.row?, hpending] at hfound
    exact Option.some.inj (hlookup.symm.trans hfound)
  subst hrow
  refine ⟨Prod.ext (hmatches.1.1.2.trans hsequence) (hmatches.1.2.trans hhead), fun other => ?_⟩
  rw [row?_setStatus, World.row?, hafter, World.row?, World.row?, hpending]
  change (pending.modify candidateId _ _ _).lookup other =
    if _ then (pending.lookup candidateId).map _ else pending.lookup other
  rw [Table.lookup_modify, hlookup, Option.map_some, AnchoredAttestationReplay.finalizing,
    if_pos hfinalizable]
  rfl

/-- What a recording has done when it answers. -/
theorem record_eq_ok {call : ReplayRegistry.RecordCall} {recorded : Recorded}
    (hrequires : Requires primitives (.anchored (.record call)) world)
    (hok : (execute primitives (.anchored (.record call)) world).1 = .ok recorded) :
    ∃ candidateId candidate, world.candidate? candidateId = some candidate ∧
      call.finalizePendingCandidateId = some candidateId ∧
      candidate.point = (recorded.sequence, recorded.head) ∧
      candidate.prior = (world.registry.ledgerOf candidate.row.providerId).last ∧
      world.standing.HasPassed candidate.row.providerId candidate.point ∧
      (∃ entry : ReplayRegistry.Entry, entry.providerId = candidate.row.providerId ∧
        ∀ providerId, (execute primitives (.anchored (.record call)) world).2.registry.ledgerOf
            providerId =
          if providerId = candidate.row.providerId then
            (world.registry.ledgerOf providerId).record primitives.toRecovery.toPrimitives entry
          else world.registry.ledgerOf providerId) ∧
      ((execute primitives (.anchored (.record call)) world).2.registry.ledgerOf
        candidate.row.providerId).last = candidate.point ∧
      ∀ other, (execute primitives (.anchored (.record call)) world).2.row? other =
        (world.setStatus candidateId .finalized).row? other := by
  obtain ⟨candidateId, candidate, hcandidate, hexpected, hfinalize, hpassed, howner⟩ := hrequires
  have hrecorded : verifyAndRecordAttestation primitives.toRecovery.toPrimitives call
      world.registry = (.ok recorded,
        (execute primitives (.anchored (.record call)) world).2.registry) :=
    Prod.ext hok rfl
  obtain ⟨hverified, hlast, hprior, hfinalizes⟩ :=
    AnchoredAttestationReplay.verifyAndRecordAttestation_answer hrecorded
  obtain ⟨entry, hentry, hledgers⟩ := AnchoredAttestationReplay.ledgerOf_recorded hrecorded
  have hprovider := howner _ hverified
  obtain ⟨hpoint, hrows⟩ := row?_finalizes hcandidate (hfinalizes candidateId hfinalize)
  rw [hprovider] at hlast hprior hentry
  rw [hentry] at hledgers
  exact ⟨candidateId, candidate, hcandidate, hfinalize, hpoint, hprior _ hexpected, hpassed,
    ⟨entry, hentry, hledgers⟩, hlast.symm.trans hpoint.symm, hrows⟩

theorem execute_record_eq_error {call : ReplayRegistry.RecordCall} {error : Raised}
    (herror : (execute primitives (.anchored (.record call)) world).1 = .error error) :
    (execute primitives (.anchored (.record call)) world).2 = world := by
  have hrecorded : verifyAndRecordAttestation primitives.toRecovery.toPrimitives call
      world.registry = (.error error,
        (execute primitives (.anchored (.record call)) world).2.registry) :=
    Prod.ext herror rfl
  have hsame := ReplayRegistry.verifyAndRecordAttestation_eq_error hrecorded
  change ({ world with toWorld := ⟨(execute primitives (.anchored (.record call))
    world).2.registry, world.anchors⟩ } : World) = world
  rw [hsame]

theorem change_record {call : ReplayRegistry.RecordCall}
    (hrequires : Requires primitives (.anchored (.record call)) world) :
    Change origin world.standing
      (execute primitives (.anchored (.record call)) world).2.standing := by
  cases hanswer : (execute primitives (.anchored (.record call)) world).1 with
  | error error =>
      rw [execute_record_eq_error hanswer]
      exact Change.same
  | ok recorded =>
      obtain ⟨candidateId, candidate, hcandidate, -, -, hprior, hpassed,
        ⟨entry, -, hledgers⟩, hlast, hrows⟩ := record_eq_ok hrequires hanswer
      have hafter : (execute primitives (.anchored (.record call)) world).2.standing =
          (world.standing.accept candidate.row.providerId candidate.point).stage candidateId
            (candidate.withStatus .finalized).proposal := by
        have hself := hledgers candidate.row.providerId
        rw [if_pos rfl] at hself
        refine StagedAdvance.Standing.ext rfl (funext fun providerId => ?_)
          (funext fun providerId => ?_) ?_
        · change ((execute primitives _ world).2.registry.ledgerOf providerId).last =
            (world.standing.accept _ _).last providerId
          by_cases hprovider : providerId = candidate.row.providerId
          · subst hprovider
            rw [hlast, StagedAdvance.Standing.last_accept_self]
          · rw [hledgers, if_neg hprovider, StagedAdvance.Standing.last_accept_of_ne hprovider]
            rfl
        · change pointsOf ((execute primitives _ world).2.registry.ledgerOf providerId) =
            Function.update world.standing.accepted candidate.row.providerId _ providerId
          by_cases hprovider : providerId = candidate.row.providerId
          · subst hprovider
            rw [hself] at hlast ⊢
            rw [pointsOf_record, hlast, Function.update_self]
            rfl
          · rw [hledgers, if_neg hprovider, Function.update_of_ne hprovider]
            rfl
        · have hfinalized := congrArg StagedAdvance.Standing.staged
            (standing_setStatus .finalized hcandidate)
          exact (staged_of_rows hrows rfl).trans hfinalized
      rw [hafter]
      exact Change.accept (staged_standing hcandidate) hprior hpassed

/-! ## Every statement -/

/-- A statement is a change of the standing. -/
theorem change_execute (statement : Statement) (hsound : Sound primitives world)
    (hrequires : Requires primitives statement world) :
    Change origin world.standing (execute primitives statement world).2.standing := by
  cases statement with
  | anchored statement =>
      cases statement with
      | provision provided faulty => exact change_provision provided faulty
      | compareAndSetAnchor request delivery => exact change_compareAndSetAnchor hrequires
      | record call => exact change_record hrequires
      | getAnchor | localState => exact Change.same
  | ensurePending =>
      change Change origin world.standing world.ensurePending.standing
      rw [standing_ensurePending]
      exact Change.same
  | persistPending candidate => exact change_persistPending hrequires
  | markConflict candidateId => exact change_markConflict hrequires
  | finalizeStored row => exact change_finalizeStored row hsound
  | selectCandidate | recoveryPlan => exact Change.same

/-- The ledgers are only added to, each with entries of its provider. -/
theorem ledgers_execute (statement : Statement) (hsound : Sound primitives world)
    (providerId : String) :
    ((execute primitives statement world).2.registry.ledgerOf providerId).Consistent
      primitives.toRecovery.toPrimitives providerId := by
  have hledger := hsound.ledgers providerId
  cases statement with
  | anchored statement =>
      change ((AnchoredAttestationReplay.execute primitives.toRecovery.toPrimitives statement
        world.toWorld).2.registry.ledgerOf providerId).Consistent _ _
      rcases AnchoredAttestationReplay.ledgerOf_execute statement world.toWorld providerId with
        hsame | ⟨entry, rfl, hadded⟩
      · rwa [hsame]
      · rw [hadded]
        exact hledger.record
  | persistPending candidate =>
      change ((persistPending candidate world).2.registry.ledgerOf providerId).Consistent _ _
      rcases persistPending_cases candidate world with
        ⟨error, hraised⟩ | ⟨-, ⟨existing, -, -, hfound⟩ | ⟨after, hstages, hstaged⟩⟩
      · rwa [hraised]
      · rwa [hfound]
      · rwa [hstaged, hstages.ledgers]
  | finalizeStored row =>
      change ((finalizeStored row world).2.registry.ledgerOf providerId).Consistent _ _
      rcases finalizeStored_cases row world with ⟨error, hraised⟩ | ⟨-, -, hdone⟩
      · rwa [hraised]
      · rw [hdone]
        exact hledger
  | ensurePending | markConflict | selectCandidate | recoveryPlan => exact hledger

/-- The database has the same rows, with the same columns. -/
structure SameRows (before after : World) : Prop where
  rows : ∀ candidateId, after.row? candidateId = before.row? candidateId
  columns : after.columns = before.columns

/-- A statement keeps the rows, sets the status of one, or stages a candidate. -/
theorem rows_execute (statement : Statement) (hrequires : Requires primitives statement world) :
    SameRows world (execute primitives statement world).2 ∨
      (∃ candidateId status, SameRows (world.setStatus candidateId status)
        (execute primitives statement world).2) ∨
      ∃ candidate, statement = .persistPending candidate ∧
        Stages candidate world (execute primitives statement world).2 := by
  have hensured : SameRows world world.ensurePending := ⟨row?_ensurePending, rfl⟩
  cases statement with
  | anchored statement =>
      cases statement with
      | provision | compareAndSetAnchor | getAnchor | localState => exact Or.inl ⟨fun _ => rfl, rfl⟩
      | record call =>
          cases hanswer : (execute primitives (.anchored (.record call)) world).1 with
          | error error =>
              rw [execute_record_eq_error hanswer]
              exact Or.inl ⟨fun _ => rfl, rfl⟩
          | ok recorded =>
              obtain ⟨finalized, -, -, -, -, -, -, -, -, hrows⟩ := record_eq_ok hrequires hanswer
              exact Or.inr (Or.inl ⟨finalized, .finalized, hrows, rfl⟩)
  | persistPending candidate =>
      rw [show (execute primitives (.persistPending candidate) world).2 =
        (persistPending candidate world).2 from rfl]
      rcases persistPending_cases candidate world with
        ⟨error, hraised⟩ | ⟨-, ⟨existing, -, -, hfound⟩ | ⟨after, hstages, hstaged⟩⟩
      · rw [hraised]
        exact Or.inl hensured
      · rw [hfound]
        exact Or.inl hensured
      · rw [hstaged]
        exact Or.inr (Or.inr ⟨candidate, rfl, hstages⟩)
  | finalizeStored row =>
      rw [show (execute primitives (.finalizeStored row) world).2 =
        (finalizeStored row world).2 from rfl]
      rcases finalizeStored_cases row world with ⟨error, hraised⟩ | ⟨-, -, hdone⟩
      · rw [hraised]
        exact Or.inl ⟨fun _ => rfl, rfl⟩
      · rw [hdone]
        exact Or.inr (Or.inl ⟨row.candidateId, .finalized, fun _ => rfl, rfl⟩)
  | markConflict candidateId =>
      exact Or.inr (Or.inl ⟨candidateId, .conflict, fun _ => rfl, rfl⟩)
  | ensurePending => exact Or.inl hensured
  | selectCandidate | recoveryPlan => exact Or.inl ⟨fun _ => rfl, rfl⟩

/-- Where the rows after a statement come from. -/
theorem row?_execute (statement : Statement) (hrequires : Requires primitives statement world)
    {row : PendingRow}
    (hrow : (execute primitives statement world).2.row? candidateId = some row) :
    (∃ old status, world.row? candidateId = some old ∧ row = restatus status old ∧
        (execute primitives statement world).2.columns candidateId = world.columns candidateId) ∨
      ∃ candidate, statement = .persistPending candidate ∧ row = candidate.row ∧
        (execute primitives statement world).2.columns candidateId = some candidate.columns := by
  rcases rows_execute statement hrequires with
    hsame | ⟨changed, status, hsame⟩ | ⟨candidate, hstatement, hstages⟩
  · rw [hsame.rows] at hrow
    exact Or.inl ⟨row, row.status, hrow, rfl, congrFun hsame.columns _⟩
  · refine Or.inl ?_
    rw [hsame.rows, row?_setStatus] at hrow
    split at hrow
    case isTrue hself =>
      subst hself
      obtain ⟨old, hold, rfl⟩ := Option.map_eq_some_iff.mp hrow
      exact ⟨old, status, hold, rfl, congrFun hsame.columns _⟩
    case isFalse => exact ⟨row, row.status, hrow, rfl, congrFun hsame.columns _⟩
  · rw [hstages.rows] at hrow
    rw [hstages.columns]
    split at hrow
    case isTrue hself =>
      subst hself
      exact Or.inr ⟨candidate, hstatement, (Option.some.inj hrow).symm, Function.update_self _ _ _⟩
    case isFalse hother =>
      exact Or.inl ⟨row, row.status, hrow, rfl, Function.update_of_ne (Ne.symm hother) _ _⟩

/-- What a call establishes keeps the database sound. -/
theorem sound_execute (statement : Statement) (hsound : Sound primitives world)
    (hrequires : Requires primitives statement world) :
    Sound primitives (execute primitives statement world).2 where
  ledgers := ledgers_execute statement hsound
  columned := fun candidateId row hrow => by
    rcases row?_execute statement hrequires hrow with
      ⟨old, status, hold, -, hcolumns⟩ | ⟨candidate, -, -, hcolumns⟩
    · rw [hcolumns]
      exact hsound.columned candidateId old hold
    · rw [hcolumns]
      rfl
  hashed := fun candidateId candidate hcandidate => by
    obtain ⟨hrow, hafter⟩ := candidate?_eq_some_iff.mp hcandidate
    rcases row?_execute statement hrequires hrow with
      ⟨old, status, hold, hsame, hcolumns⟩ | ⟨staged, rfl, hsame, hcolumns⟩
    · have hbefore : world.candidate? candidateId = some ⟨old, candidate.columns⟩ :=
        candidate?_eq_some_iff.mpr ⟨hold, hcolumns.symm.trans hafter⟩
      have hhashed := hsound.hashed candidateId _ hbefore
      rw [Candidate.event, hsame]
      exact hhashed
    · obtain rfl : candidate = staged := by
        cases candidate
        cases staged
        exact congrArg₂ Candidate.mk hsame (Option.some.inj (hafter.symm.trans hcolumns))
      exact hrequires.2.2
  kept := (change_execute statement hsound hrequires).kept hsound.kept

end AegisForge.Shared.PendingAnchoredReplay
