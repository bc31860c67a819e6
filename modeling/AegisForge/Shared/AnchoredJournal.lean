import AegisForge.Shared.AnchoredAttestationReplay

/-!
# The anchor and the journal

An attestation is recorded before the anchor moves to its event, so that every
anchor is a point of the journal, which is only ever added to.
-/

namespace AegisForge.Shared.AnchoredAttestationReplay

open AegisForge.Core AegisForge.Concurrency
open IndependentRunnerAttestation (VerifiedAttestation verifyIndependentRunnerAttestation)
open ReplayRegistry hiding Statement execute Action send
open Tools.ReplayAnchor (AnchorRow AnchorTable CasOutcome CasRequest isValidAnchorRow
  compareAndSet insertAnchor)

/-! ## What a recording answers -/

section Recording

variable {primitives : ReplayRegistry.Primitives} {registry after : Registry}
variable {call : ReplayRegistry.RecordCall} {verified : VerifiedAttestation} {recorded : Recorded}

/-- What the acceptance of an event makes of a row. -/
def finalizing (candidateId : String) (event : ReplayRegistry.EvidenceRow) (row : PendingRow) :
    PendingRow :=
  if row.isFinalizable candidateId event then { row with status := .finalized } else row

variable {candidateId : String} {event : ReplayRegistry.EvidenceRow}

theorem candidateId_finalizing (row : PendingRow) :
    (finalizing candidateId event row).candidateId = row.candidateId := by
  rw [finalizing]
  split <;> rfl

/-- The row of a candidate that the acceptance of its event finalizes. -/
def Finalizes (registry after : Registry) (candidateId : String) (recorded : Recorded) : Prop :=
  ∃ pending, ∃ event : ReplayRegistry.EvidenceRow, registry.pending = some pending ∧
    event.providerId = recorded.verified.dossier.providerId ∧
    event.sequence = recorded.sequence ∧ event.journalHead = recorded.head ∧
    (∃ row ∈ pending.rows, row.isFinalizable candidateId event = true) ∧
    after.pending = some (pending.modify candidateId (finalizing candidateId event)
      candidateId_finalizing candidateId_finalizing)

theorem run_finalizeCandidate_some {value : PUnit}
    (hrun : (finalizeCandidate event (some candidateId)).run ReplayRegistry.execute registry =
      (.ok value, after)) :
    ∃ pending, registry.pending = some pending ∧
      (∃ row ∈ pending.rows, row.isFinalizable candidateId event = true) ∧
      after.state = registry.state ∧
      after.pending = some (pending.modify candidateId (finalizing candidateId event)
        candidateId_finalizing candidateId_finalizing) := by
  obtain ⟨finalized, between, hfinalized, hrest⟩ := Program.run_bind_eq_ok _ hrun
  obtain ⟨hanswer, hbetween⟩ := Prod.mk.inj hfinalized
  have hanswer := Except.ok.inj hanswer
  rw [ReplayRegistry.execute] at hanswer hbetween
  cases hpending : registry.pending with
  | none =>
      rw [hpending] at hanswer
      subst hanswer
      cases hrest
  | some pending =>
      rw [hpending] at hanswer hbetween
      subst hanswer
      obtain ⟨hcount, rfl⟩ := Program.run_raiseIf_eq_ok _ hrest
      have hone := not_not.mp hcount
      obtain ⟨row, hrow⟩ := List.length_pos_iff_exists_mem.mp (hone ▸ Nat.one_pos)
      obtain ⟨hmem, hfinalizable⟩ := List.mem_filter.mp hrow
      rw [← hbetween]
      exact ⟨pending, rfl, ⟨row, hmem, hfinalizable⟩, rfl, rfl⟩

/-- The answer of a recording is the last event of the journal that it leaves. -/
theorem run_recordAttestation_answer
    (hrun : (recordAttestation primitives call verified).run ReplayRegistry.execute registry =
      (.ok recorded, after)) :
    recorded.verified = verified ∧
      (recorded.sequence, recorded.head) = (after.ledgerOf verified.dossier.providerId).last ∧
      (∀ expected, call.expectedJournalState = some expected →
        expected = (registry.ledgerOf verified.dossier.providerId).last) ∧
      ∀ candidateId, call.finalizePendingCandidateId = some candidateId →
        Finalizes registry after candidateId recorded := by
  obtain ⟨stored, first, hselected, hrest⟩ := Program.run_bind_eq_ok _ hrun
  obtain ⟨hstored, rfl⟩ := Prod.mk.inj hselected
  have hlookup : registry.state.lookup verified.dossier.providerId = stored :=
    Except.ok.inj hstored
  subst hlookup
  obtain ⟨_, second, hlegacy, hexpecting⟩ := Program.run_bind_eq_ok _ hrest
  have hsecond : second = registry := by
    rcases run_whenMissing_eq_ok hlegacy with ⟨-, hcounted⟩ | ⟨-, hsame⟩
    · exact run_requireNoLegacy_eq_ok hcounted
    · exact hsame
  subst second
  obtain ⟨_, third, hexpected, hinitial⟩ := Program.run_bind_eq_ok _ hexpecting
  obtain ⟨hunchanged, hthird⟩ := Program.run_raiseIf_eq_ok _ hexpected
  subst third
  obtain ⟨_, fourth, hinitialized, haccepting⟩ := Program.run_bind_eq_ok _ hinitial
  obtain ⟨state, rfl, -⟩ := run_insertMissingState_eq_ok hinitialized
  obtain ⟨_, fifth, haccepted, happending⟩ := Program.run_bind_eq_ok _ haccepting
  obtain ⟨accepted, -, rfl⟩ := run_insertAccepted_eq_ok haccepted
  obtain ⟨appended, sixth, hevent, htexts⟩ := Program.run_bind_eq_ok _ happending
  obtain ⟨-, event, journal, hnext, rfl, -, rfl⟩ := run_appendJournalEvent_eq_ok hevent
  obtain ⟨dossierJson, seventh, hdossier, henveloping⟩ := Program.run_bind_eq_ok _ htexts
  obtain ⟨-, rfl⟩ := run_canonicalText_eq_ok hdossier
  obtain ⟨envelopeJson, eighth, henvelope, hevidencing⟩ := Program.run_bind_eq_ok _ henveloping
  obtain ⟨-, rfl⟩ := run_canonicalText_eq_ok henvelope
  obtain ⟨_, ninth, hevidence, hfinalizing⟩ := Program.run_bind_eq_ok _ hevidencing
  obtain ⟨evidence, -, rfl⟩ := run_insertEvidence_eq_ok hevidence
  obtain ⟨_, tenth, hfinalized, hdone⟩ := Program.run_bind_eq_ok _ hfinalizing
  obtain ⟨hrecorded, rfl⟩ := Prod.mk.inj hdone
  obtain rfl := Except.ok.inj hrecorded
  have hstate : tenth.state = upsertState state
      ⟨verified.dossier.providerId, event.sequence, primitives.eventHash event⟩ := by
    obtain ⟨pending, rfl⟩ := run_finalizeCandidate_eq_ok hfinalized
    rfl
  refine ⟨rfl, ?_, fun expected hexpected => ?_, fun candidateId hcandidate => ?_⟩
  · rw [Ledger.last, Registry.ledgerOf, hstate, lookup_upsertState, if_pos rfl]
    rfl
  · rw [hexpected, Option.any_some] at hunchanged
    have hsame := not_not.mp (of_decide_eq_false (Bool.eq_false_iff.mpr hunchanged))
    simpa [Ledger.last, Registry.ledgerOf] using hsame
  · rw [hcandidate] at hfinalized
    obtain ⟨pending, hpending, hrow, -, hafter⟩ := run_finalizeCandidate_some hfinalized
    exact ⟨pending, _, hpending, rfl, rfl, rfl, hrow, hafter⟩

/-- What the call of a recording does to the registry. -/
theorem verifyAndRecordAttestation_answer
    (hrecorded : verifyAndRecordAttestation primitives call registry = (.ok recorded, after)) :
    verifyIndependentRunnerAttestation primitives.attestations call.dossier.val call.envelope.val
        call.trustedPublicKeys = .ok recorded.verified ∧
      (recorded.sequence, recorded.head) =
        (after.ledgerOf recorded.verified.dossier.providerId).last ∧
      (∀ expected, call.expectedJournalState = some expected →
        expected = (registry.ledgerOf recorded.verified.dossier.providerId).last) ∧
      ∀ candidateId, call.finalizePendingCandidateId = some candidateId →
        Finalizes registry after candidateId recorded := by
  rw [verifyAndRecordAttestation] at hrecorded
  split at hrecorded
  case h_1 => cases hrecorded
  case h_2 verified hverified =>
    rw [transaction] at hrecorded
    split at hrecorded
    case h_1 value committed hrun =>
      obtain ⟨hvalue, rfl⟩ := Prod.mk.inj hrecorded
      obtain rfl := Except.ok.inj hvalue
      obtain ⟨rfl, hanswer, hexpected, hfinalizes⟩ := run_recordAttestation_answer hrun
      exact ⟨hverified, hanswer, hexpected, hfinalizes⟩
    case h_2 => cases hrecorded

/-- A recording adds an entry to the ledger of the provider that its answer names. -/
theorem ledgerOf_recorded
    (hrecorded : verifyAndRecordAttestation primitives call registry = (.ok recorded, after)) :
    ∃ entry, entry.providerId = recorded.verified.dossier.providerId ∧
      ∀ providerId, after.ledgerOf providerId =
        if providerId = entry.providerId then
          (registry.ledgerOf providerId).record primitives entry
        else registry.ledgerOf providerId := by
  obtain ⟨hverified, -⟩ := verifyAndRecordAttestation_answer hrecorded
  obtain ⟨entry, ⟨verified, dossierJson, envelopeJson, hsame, -, -, rfl⟩, -, hledgers⟩ :=
    verifyAndRecordAttestation_eq_ok hrecorded
  obtain rfl := Except.ok.inj (hsame.symm.trans hverified)
  exact ⟨_, rfl, hledgers⟩

end Recording

/-! ## Points of a journal -/

/-- The genesis, or an event of the journal. -/
def Names (ledger : Ledger) (point : ℤ × String) : Prop :=
  point = (0, genesis) ∨ ∃ row ∈ ledger.journal, (row.sequence, row.head) = point

variable {primitives : ReplayRegistry.Primitives} {ledger : Ledger} {point : ℤ × String}

theorem Names.record (hnames : Names ledger point) (entry : Entry) :
    Names (ledger.record primitives entry) point := by
  rcases hnames with hgenesis | ⟨row, hrow, hpoint⟩
  · exact Or.inl hgenesis
  · exact Or.inr ⟨row, List.mem_append_left _ hrow, hpoint⟩

theorem names_last_record (entry : Entry) :
    Names (ledger.record primitives entry) (ledger.record primitives entry).last :=
  Or.inr ⟨_, List.mem_append_right _ (List.mem_singleton_self _), rfl⟩

/-! ## What a statement does to the anchors and to the journals -/

variable {world : World} {statement : Statement} {providerId : String}

/-- An exchange leaves the anchors, or does what the service does to them. -/
theorem anchors_compareAndSetAnchor (request : CasRequest) (delivery : Delivery)
    (anchors : AnchorTable) :
    (compareAndSetAnchor request delivery anchors).2 = anchors ∨
      request.newSequence = request.expectedSequence + 1 ∧
        (compareAndSetAnchor request delivery anchors).2 =
          (compareAndSet request false anchors).2 := by
  rw [compareAndSetAnchor]
  split
  case isTrue => exact Or.inl rfl
  case isFalse hsequence =>
    split
    case isTrue => exact Or.inl rfl
    case isFalse =>
      split
      case isTrue => exact Or.inl rfl
      case isFalse => exact Or.inr ⟨not_not.mp (not_or.mp hsequence).2, rfl⟩

/-- An exchange leaves an anchor, or moves it on by one from what was expected. -/
theorem lookup_compareAndSetAnchor (request : CasRequest) (delivery : Delivery)
    (anchors : AnchorTable) (providerId : String) :
    (compareAndSetAnchor request delivery anchors).2.lookup providerId =
        anchors.lookup providerId ∨
      request.provider = providerId ∧ request.newSequence = request.expectedSequence + 1 ∧
        ∃ row, anchors.lookup providerId = some row ∧
          row.sequence = request.expectedSequence ∧ row.headSha256 = request.expectedHead ∧
          (compareAndSetAnchor request delivery anchors).2.lookup providerId =
            some (row.advanced request.newSequence request.newHead) := by
  rcases anchors_compareAndSetAnchor request delivery anchors with hsame | ⟨hsuccessor, hafter⟩
  · exact Or.inl (congrArg (Table.lookup · providerId) hsame)
  · rw [hafter, Tools.ReplayAnchor.lookup_compareAndSet]
    split
    case isFalse => exact Or.inl rfl
    case isTrue hupdated =>
      obtain ⟨houtcome, rfl⟩ := hupdated
      obtain ⟨-, hcas⟩ := Tools.ReplayAnchor.compareAndSet_eq_updated_iff.mp houtcome
      obtain ⟨row, hrow, -, hsequence, hhead, -⟩ :=
        Tools.ReplayAnchor.casOutcome_eq_updated_iff.mp hcas
      exact Or.inr ⟨rfl, hsuccessor, row, hrow, hsequence, hhead, by rw [hrow, Option.map_some]⟩

theorem casAnswer_eq_ok_true {delivery : Delivery} {outcome : CasOutcome}
    (hok : casAnswer delivery outcome = .ok true) : outcome = .updated := by
  cases delivery <;> cases outcome <;> first | rfl | cases hok

/-- What was answered `True` has moved the anchor. -/
theorem lookup_of_compareAndSetAnchor_ok {request : CasRequest} {delivery : Delivery}
    {anchors : AnchorTable} (hok : (compareAndSetAnchor request delivery anchors).1 = .ok true) :
    ∃ row, (compareAndSetAnchor request delivery anchors).2.lookup request.provider = some row ∧
      row.sequence = request.newSequence ∧ row.headSha256 = request.newHead := by
  simp only [compareAndSetAnchor] at hok ⊢
  split_ifs at hok ⊢ with hsequence hheads hlost
  have houtcome := casAnswer_eq_ok_true hok
  obtain ⟨-, hcas⟩ := Tools.ReplayAnchor.compareAndSet_eq_updated_iff.mp houtcome
  obtain ⟨row, hrow, -⟩ := Tools.ReplayAnchor.casOutcome_eq_updated_iff.mp hcas
  refine ⟨row.advanced request.newSequence request.newHead, ?_, rfl, rfl⟩
  rw [Tools.ReplayAnchor.lookup_compareAndSet, if_pos ⟨houtcome, rfl⟩, hrow, Option.map_some]

/-- What a statement does to the anchor of a provider. -/
theorem anchors_execute (primitives : ReplayRegistry.Primitives) (statement : Statement)
    (world : World) (providerId : String) :
    (execute primitives statement world).2.anchors.lookup providerId =
        world.anchors.lookup providerId ∨
      (world.anchors.lookup providerId = none ∧
        (execute primitives statement world).2.anchors.lookup providerId =
          some ⟨providerId, 0, genesis⟩) ∨
      ∃ request delivery row, statement = .compareAndSetAnchor request delivery ∧
        request.provider = providerId ∧ request.newSequence = request.expectedSequence + 1 ∧
        world.anchors.lookup providerId = some row ∧
        row.sequence = request.expectedSequence ∧ row.headSha256 = request.expectedHead ∧
        (execute primitives statement world).2.anchors.lookup providerId =
          some (row.advanced request.newSequence request.newHead) := by
  cases statement with
  | provision provided faulty =>
      rcases Tools.ReplayAnchor.lookup_insertAnchor provided faulty world.anchors providerId with
        hsame | hnew
      · exact Or.inl hsame
      · exact Or.inr (Or.inl hnew)
  | compareAndSetAnchor request delivery =>
      rcases lookup_compareAndSetAnchor request delivery world.anchors providerId with
        hsame | ⟨hprovider, hsuccessor, row, hrow, hsequence, hhead, hafter⟩
      · exact Or.inl hsame
      · exact Or.inr (Or.inr ⟨request, delivery, row, rfl, hprovider, hsuccessor, hrow, hsequence,
          hhead, hafter⟩)
  | getAnchor | localState | record => exact Or.inl rfl

/-- What a statement does to the ledger of a provider. -/
theorem ledgerOf_execute (statement : Statement) (world : World) (providerId : String) :
    (execute primitives statement world).2.registry.ledgerOf providerId =
        world.registry.ledgerOf providerId ∨
      ∃ entry, providerId = entry.providerId ∧
        (execute primitives statement world).2.registry.ledgerOf providerId =
          (world.registry.ledgerOf providerId).record primitives entry := by
  cases statement with
  | provision | getAnchor | compareAndSetAnchor | localState => exact Or.inl rfl
  | record call =>
      change (verifyAndRecordAttestation primitives call world.registry).2.ledgerOf providerId = _ ∨
        ∃ entry, _ ∧ (verifyAndRecordAttestation primitives call world.registry).2.ledgerOf
          providerId = _
      cases hrecorded : verifyAndRecordAttestation primitives call world.registry with
      | mk answer after =>
          cases answer with
          | error error => exact Or.inl (by rw [verifyAndRecordAttestation_eq_error hrecorded])
          | ok recorded =>
              obtain ⟨entry, -, hledgers⟩ := ledgerOf_recorded hrecorded
              by_cases hprovider : providerId = entry.providerId
              · exact Or.inr ⟨entry, hprovider, (hledgers providerId).trans (if_pos hprovider)⟩
              · exact Or.inl ((hledgers providerId).trans (if_neg hprovider))

/-- The journals are only added to. -/
theorem names_execute (statement : Statement)
    (hnames : Names (world.registry.ledgerOf providerId) point) :
    Names ((execute primitives statement world).2.registry.ledgerOf providerId) point := by
  rcases ledgerOf_execute statement world providerId with hsame | ⟨entry, -, hadded⟩
  · rwa [hsame]
  · rw [hadded]
    exact hnames.record entry

/-- The anchor of a provider has come to a sequence. -/
def HasReached (providerId : String) (sequence : ℤ) (world : World) : Prop :=
  ∃ row, world.anchors.lookup providerId = some row ∧ sequence ≤ row.sequence

theorem hasReached_execute {sequence : ℤ} (statement : Statement)
    (hreached : HasReached providerId sequence world) :
    HasReached providerId sequence (execute primitives statement world).2 := by
  obtain ⟨row, hrow, hsequence⟩ := hreached
  rcases anchors_execute primitives statement world providerId with
    hsame | ⟨hnone, -⟩ | ⟨request, _, found, -, -, hsuccessor, hfound, hexpected, -, hafter⟩
  · exact ⟨row, hsame.trans hrow, hsequence⟩
  · rw [hrow] at hnone
    cases hnone
  · obtain rfl := Option.some.inj (hrow.symm.trans hfound)
    refine ⟨_, hafter, hsequence.trans ?_⟩
    change row.sequence ≤ request.newSequence
    omega

/-! ## The strict adapter -/

/-- Every anchor names a point of the journal of its provider. -/
def IsAnchored (world : World) : Prop :=
  ∀ providerId row, world.anchors.lookup providerId = some row →
    Names (world.registry.ledgerOf providerId) (row.sequence, row.headSha256)

/-- An anchor moves to what is in the journal. -/
def Publishes (statement : Statement) (world : World) : Prop :=
  ∀ request delivery, statement = .compareAndSetAnchor request delivery →
    Names (world.registry.ledgerOf request.provider) (request.newSequence, request.newHead)

theorem IsAnchored.execute {statement : Statement} (hanchored : IsAnchored world)
    (hpublishes : Publishes statement world) :
    IsAnchored (execute primitives statement world).2 := by
  intro providerId row hrow
  apply names_execute statement
  rcases anchors_execute primitives statement world providerId with
    hsame | ⟨-, hgenesis⟩ | ⟨request, delivery, found, hstatement, rfl, -, -, -, -, hafter⟩
  · exact hanchored providerId row (hsame.symm.trans hrow)
  · obtain rfl := Option.some.inj (hrow.symm.trans hgenesis)
    exact Or.inl rfl
  · obtain rfl := Option.some.inj (hrow.symm.trans hafter)
    exact hpublishes request delivery hstatement

abbrev AnchoredHistory : Type := History Statement World

/-- The anchors have named points of the journals at all times. -/
def AlwaysAnchored (history : AnchoredHistory) : Prop :=
  IsAnchored history.store ∧ ∀ event ∈ history.trace, IsAnchored event.found

def rules (primitives : ReplayRegistry.Primitives) : Rules (execute primitives) :=
  Rules.ofInvariant (execute primitives) AlwaysAnchored (fun _ _ _ => True)
    (fun _ statement history => Publishes statement history.store)
    fun halways _ hpublishes =>
      ⟨halways.1.execute hpublishes, List.forall_mem_cons.mpr halways⟩

variable {process : ℕ} {history later : AnchoredHistory}

/-- What every statement keeps of the store is kept while others run. -/
theorem kept_of_rely (holds : World → Prop)
    (hkept : ∀ statement world, holds world → holds (execute primitives statement world).2)
    (hrely : (rules primitives).rely process history later) (hholds : holds history.store) :
    holds later.store :=
  Rules.kept_of_interferes holds hkept hrely hholds

/-- The event of an answer is in the journal, and the anchor has come to it. -/
def Confirmed (recorded : Recorded) (world : World) : Prop :=
  Names (world.registry.ledgerOf recorded.verified.dossier.providerId)
      (recorded.sequence, recorded.head) ∧
    HasReached recorded.verified.dossier.providerId recorded.sequence world

theorem confirmed_execute {recorded : Recorded} (statement : Statement)
    (hconfirmed : Confirmed recorded world) :
    Confirmed recorded (execute primitives statement world).2 :=
  ⟨names_execute statement hconfirmed.1, hasReached_execute statement hconfirmed.2⟩

theorem provider_of_verified {dossier envelope : Json} {trusted : String → Option AttestorRegistry.Bytes}
    {verified : VerifiedAttestation}
    (hprovider : providerOf dossier = .ok providerId)
    (hverified : verifyIndependentRunnerAttestation primitives.attestations dossier envelope
      trusted = .ok verified) : verified.dossier.providerId = providerId := by
  obtain ⟨-, -, htext, -⟩ := IndependentRunnerAttestation.verify_eq_ok hverified
  have hfound := orRaise_eq_ok hprovider
  rw [htext, Json.text?, Option.filter_eq_some_iff] at hfound
  exact Option.some.inj hfound.1

/-- The statement is an exchange that may move an anchor. -/
def isPublishing : Statement → Bool
  | .compareAndSetAnchor _ _ => true
  | _ => false

theorem publishes_of_not_publishing (hreads : isPublishing statement = false) :
    Publishes statement world := by
  rintro request delivery rfl
  cases hreads

/-- A part of a call that reads only. -/
theorem safe_reading {Value : Type} {program : Action Value}
    (hwithin : program.Within fun statement => isPublishing statement = false) :
    (rules primitives).Safe process (fun _ _ => True) (fun _ _ => True) program history :=
  Rules.safe_of_within (fun _ _ hreads _ _ => publishes_of_not_publishing hreads) hwithin

theorem within_readAnchor {delivery : Delivery} :
    (readAnchor providerId delivery).Within fun statement => isPublishing statement = false := by
  refine ⟨rfl, fun answer => ?_⟩
  cases answer with
  | error error => trivial
  | ok row => exact Program.within_ofExcept

/-- What was recorded is in the journal from then on. -/
theorem safe_record {call : ReplayRegistry.RecordCall} (hprovider : providerOf call.dossier.val = .ok providerId) :
    (rules primitives).Safe process
      (fun recorded later => recorded.verified.dossier.providerId = providerId ∧
        Names (later.store.registry.ledgerOf providerId) (recorded.sequence, recorded.head))
      (fun _ _ => True) (attempt (send (.record call))) history := by
  intro later _ _ _
  refine ⟨publishes_of_not_publishing rfl, ?_⟩
  cases hrecorded : verifyAndRecordAttestation primitives call later.store.registry with
  | mk answer after =>
      have hanswer : (execute primitives (.record call) later.store).1 = answer :=
        congrArg Prod.fst hrecorded
      have hafter : (later.record (execute primitives) process (.record call)).store.registry =
          after := congrArg Prod.snd hrecorded
      rw [hanswer]
      cases answer with
      | error error => exact fun _ _ _ => trivial
      | ok recorded =>
          intro last hrely _
          obtain ⟨hverified, hlast, -⟩ := verifyAndRecordAttestation_answer hrecorded
          have howner := provider_of_verified hprovider hverified
          refine ⟨howner, ?_⟩
          apply kept_of_rely (fun world => Names (world.registry.ledgerOf providerId)
            (recorded.sequence, recorded.head)) (fun _ _ => names_execute _) hrely
          rw [hafter, hlast, howner]
          obtain ⟨entry, hentry, hledgers⟩ := ledgerOf_recorded hrecorded
          rw [hledgers, if_pos (howner.symm.trans hentry.symm)]
          exact names_last_record entry

theorem safe_strict (call : AnchoredCall) (hanchored : AlwaysAnchored history) :
    (rules primitives).Safe process (fun recorded last => Confirmed recorded last.store)
      (fun _ _ => True) (verifyAndRecordAttestationAnchored call) history := by
  apply Rules.Safe.ofExcept (fun _ _ _ _ _ => trivial)
  intro providerId hprovider
  apply Rules.Safe.andThen (safe_reading within_readAnchor) _ (fun _ _ _ _ => trivial) hanchored
  intro expected first hfirst _
  have hlocal : (attempt (send (.localState providerId))).Within fun statement =>
      isPublishing statement = false := ⟨rfl, fun _ => Program.within_ofExcept⟩
  apply Rules.Safe.andThen (safe_reading hlocal) _ (fun _ _ _ _ => trivial) hfirst
  intro found second hsecond _
  apply Rules.Safe.raiseIf (fun _ _ _ _ => trivial)
  intro _
  apply Rules.Safe.andThen (safe_record hprovider) _ (fun _ _ _ _ => trivial) hsecond
  rintro recorded third - ⟨howner, hnames⟩
  apply Rules.Safe.raiseIf (fun _ _ _ _ => trivial)
  intro _
  apply Rules.Safe.call
  intro later hrely _ _
  have hkept := kept_of_rely (fun world => Names (world.registry.ledgerOf providerId)
    (recorded.sequence, recorded.head)) (fun _ _ => names_execute _) hrely hnames
  refine ⟨fun request delivery hstatement => by cases hstatement; exact hkept, ?_⟩
  generalize hanswer : (execute primitives _ later.store).1 = answer
  match answer with
  | .error error => exact fun _ _ _ => trivial
  | .ok false => exact fun _ _ _ => trivial
  | .ok true =>
      intro last hrely _
      apply kept_of_rely (Confirmed recorded) (fun _ _ => confirmed_execute _) hrely
      obtain ⟨row, hrow, hsequence, -⟩ := lookup_of_compareAndSetAnchor_ok hanswer
      rw [Confirmed, howner]
      exact ⟨names_execute _ hkept, row, hrow, hsequence.ge⟩

/-! ## Every interleaving -/

abbrev AnchoredPool : Type := Pool Call Statement.Reply World Raised Answer

/-- What any number of provisions and strict registrations lead to, wherever they stop. -/
def AnchoredPool.Reachable (primitives : ReplayRegistry.Primitives) (pool : AnchoredPool) : Prop :=
  Pool.Reaches (execute primitives) Call.body .unrestricted (Pool.idle World.empty) pool

/-- What a call that returned promises. -/
def Returns (answer : Answer) (world : World) : Prop :=
  ∀ recorded, answer = .recorded recorded → Confirmed recorded world

theorem sound_of_reachable {pool : AnchoredPool} (hreachable : pool.Reachable primitives) :
    Rules.Sound (rules primitives) (fun _ (_ : Call) answer last => Returns answer last.store)
      (fun _ _ _ _ => True) pool := by
  have hidle : (rules primitives).invariant ⟨World.empty, []⟩ :=
    ⟨fun _ _ hrow => (by cases hrow), fun _ hevent => absurd hevent List.not_mem_nil⟩
  refine Rules.Sound.reaches (fun _ _ _ _ => trivial) ?_ (Rules.Sound.idle hidle) hreachable
  intro before call _ hanchored _
  cases call with
  | provision provided faulty =>
      intro later _ _ _
      refine ⟨publishes_of_not_publishing rfl, fun _ _ _ _ hanswer => ?_⟩
      cases hanswer
  | register call =>
      apply Rules.Safe.andThen (safe_strict call hanchored) _ (fun _ _ _ _ => trivial) hanchored
      intro recorded first _ hconfirmed last hrely _ other hother
      obtain rfl := Answer.recorded.inj hother
      exact kept_of_rely (Confirmed recorded) (fun _ _ => confirmed_execute _) hrely hconfirmed

/-- What the strict adapter keeps, whatever the interleaving. -/
structure IsFaithful (pool : AnchoredPool) : Prop where
  /-- Every anchor is a point of the journal of its provider. -/
  anchored : IsAnchored pool.history.store
  /-- Every anchor there ever was is still a point of the journal. -/
  always : ∀ event ∈ pool.history.trace, ∀ providerId row,
    event.found.anchors.lookup providerId = some row →
      Names (pool.history.store.registry.ledgerOf providerId) (row.sequence, row.headSha256)
  /-- The event of a call that returned is in the journal, and the anchor has come to it. -/
  confirmed : ∀ (index : ℕ) (call : Call) (recorded : Recorded),
    pool.processes[index]? = some ⟨call, .done (.recorded recorded)⟩ →
      Confirmed recorded pool.history.store

/-- Wherever the callers of the strict adapter stop, the anchor can be reconciled with the
journal: it names one of its points, and it never named anything else. -/
theorem isFaithful_of_reachable {pool : AnchoredPool} (hreachable : pool.Reachable primitives) :
    IsFaithful pool := by
  have hsound := sound_of_reachable hreachable
  have hchained := hreachable.chained (rfl : World.empty = World.empty)
  refine ⟨hsound.invariant.1, fun event hevent providerId row hrow => ?_,
    fun index call recorded hprocess => hsound.of_done hprocess recorded rfl⟩
  exact Pool.kept_of_chained
    (fun world => Names (world.registry.ledgerOf providerId) (row.sequence, row.headSha256))
    (fun statement _ => names_execute statement) hchained hevent
    (hsound.invariant.2 event hevent providerId row hrow)

namespace Sample

open ReplayRegistry.Sample (dossier envelope isCanonical_dossier isCanonical_envelope)

def call : AnchoredCall where
  dossier := ⟨dossier, isCanonical_dossier⟩
  envelope := ⟨envelope, isCanonical_envelope⟩
  trustedPublicKeys := ReplayRegistry.Sample.call.trustedPublicKeys
  reading := .answered
  publishing := .answered

/-- A provision, and a call that is taken to its end. -/
def moves : List (Move Call) :=
  [.start (.provision "lab" false), .advance 0, .start (.register call)] ++
    List.replicate 4 (.advance 1)

def pool : AnchoredPool :=
  Pool.run (execute ReplayRegistry.Sample.primitives) Call.body (Pool.idle World.empty) moves

theorem reachable_pool : pool.Reachable ReplayRegistry.Sample.primitives :=
  Pool.reaches_run _ moves

end Sample

theorem isFaithful_sample : IsFaithful Sample.pool :=
  isFaithful_of_reachable Sample.reachable_pool

end AegisForge.Shared.AnchoredAttestationReplay
