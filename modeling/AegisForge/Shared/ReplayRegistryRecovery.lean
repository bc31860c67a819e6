import AegisForge.Shared.ReplayJournal

/-!
# Planning the recovery of the replay registry

A plan is made when the journal of a provider extends a trusted anchor and every
event has signed evidence that verifies.  Making one changes nothing.
-/

namespace AegisForge.Shared.ReplayRegistryRecovery

open AegisForge.Core
open AttestorRegistry (Bytes)
open ReplayRegistry
open ExperimentDossier (isSha256)
open IndependentRunnerAttestation (VerifiedAttestation verifyIndependentRunnerAttestation)

/-- An event that the anchor does not cover yet. -/
structure SuffixEvent where
  sequence : ℤ
  runId : String
  nonce : String
  receiptSha256 : String
  journalHead : String
  keyId : String
  deriving DecidableEq, Repr

inductive PlanAction
  | noOpAlreadyAnchored
  | operatorReviewRequired
  deriving DecidableEq, Repr

/-- The body of a plan. -/
structure PlanBody where
  providerId : String
  anchor : ℤ × String
  terminal : ℤ × String
  suffix : List SuffixEvent
  action : PlanAction
  deriving DecidableEq, Repr

structure Plan extends PlanBody where
  planSha256 : String
  deriving DecidableEq, Repr

/-- The primitives that come from outside. -/
structure Primitives extends ReplayRegistry.Primitives where
  /-- SHA-256 of the plan domain and the canonical JSON of the body. -/
  planHash : PlanBody → String

def recoveryError (message : String) : Raised := ⟨.replayRecoveryError, message⟩

/-- `_make_plan`. -/
def makePlan (primitives : Primitives) (providerId : String) (anchor terminal : ℤ × String)
    (suffix : List SuffixEvent) : Plan :=
  let body : PlanBody :=
    { providerId := providerId
      anchor := anchor
      terminal := terminal
      suffix := suffix
      action :=
        if terminal.1 = anchor.1 then .noOpAlreadyAnchored else .operatorReviewRequired }
  { body with planSha256 := primitives.planHash body }

/-- What a plan is made from, besides the journal. -/
structure Request where
  providerId : String
  anchor : ℤ × String
  trustedPublicKeys : String → Option Bytes

/-- The evidence row of a sequence, which must state the event. -/
def boundEvidence (ledger : Ledger) (sequence : ℤ) (row : JournalRow) (head : String) :
    Option ReplayRegistry.EvidenceRow :=
  (ledger.evidence.find? fun evidence => evidence.sequence = sequence).filter fun evidence =>
    evidence.reservation = row.reservation && evidence.journalHead = head

/-- `accepted.get((run_id, nonce))`. -/
def acceptedReceipt (ledger : Ledger) (row : JournalRow) : Option String :=
  (ledger.accepted.find? fun accepted =>
    accepted.runId = row.runId ∧ accepted.nonce = row.nonce).map AcceptedRow.receiptSha256

/-- The dictionary states the text. -/
def states (stated : Json) (text : String) : Bool := stated.text? = some text

/-- The signed evidence verifies, as `except` translates what it raises. -/
def verifyEvidence (primitives : Primitives) (request : Request) (dossier envelope : Json) :
    Except Raised VerifiedAttestation :=
  match verifyIndependentRunnerAttestation primitives.attestations dossier envelope
      request.trustedPublicKeys with
  | .ok verified => .ok verified
  | .error _ => .error (recoveryError "recovery_signed_evidence_invalid")

/-- The checks of the evidence of an event, which answer the key that signed it. -/
def checkEvidence (primitives : Primitives) (request : Request) (ledger : Ledger)
    (sequence : ℤ) (row : JournalRow) (head : String) : Except Raised String := do
  let evidence ← orRaise (recoveryError "recovery_evidence_journal_binding_mismatch")
    (boundEvidence ledger sequence row head)
  raiseUnless (acceptedReceipt ledger row = some row.receiptSha256)
    (recoveryError "recovery_accepted_row_binding_mismatch")
  let dossier ← orRaise (recoveryError "recovery_signed_evidence_invalid")
    (primitives.loads evidence.dossierJson)
  let envelope ← orRaise (recoveryError "recovery_signed_evidence_invalid")
    (primitives.loads evidence.envelopeJson)
  let verified ← verifyEvidence primitives request dossier envelope
  raiseUnless (states ((dossier.get "runner").get "provider_id") request.providerId = true ∧
      states (dossier.get "run_id") row.runId = true ∧
      states (dossier.get "nonce") row.nonce = true ∧
      verified.receiptSha256 = row.receiptSha256)
    (recoveryError "recovery_signed_evidence_binding_mismatch")
  pure verified.keyId

/-- What the loop over the journal has found so far. -/
structure Progress where
  previous : String
  observedAnchorHead : String
  suffix : List SuffixEvent

/-- The suffix grows by the events after the anchor. -/
def Progress.advance (progress : Progress) (request : Request) (sequence : ℤ) (row : JournalRow)
    (head keyId : String) : Progress where
  previous := head
  observedAnchorHead :=
    if sequence = request.anchor.1 then head else progress.observedAnchorHead
  suffix :=
    if request.anchor.1 < sequence then
      progress.suffix ++ [⟨sequence, row.runId, row.nonce, row.receiptSha256, head, keyId⟩]
    else progress.suffix

/-- One turn of the loop over the journal. -/
def checkEvent (primitives : Primitives) (request : Request) (ledger : Ledger) (sequence : ℤ)
    (progress : Progress) (row : JournalRow) : Except Raised Progress := do
  let head := primitives.eventHash ⟨request.providerId, sequence, progress.previous, row.runId,
    row.nonce, row.receiptSha256⟩
  raiseUnless (row.sequence = sequence ∧ row.previousHead = progress.previous ∧ row.head = head)
    (recoveryError "recovery_journal_chain_corrupt")
  raiseUnless (¬(sequence = request.anchor.1 ∧ head ≠ request.anchor.2))
    (recoveryError "recovery_anchor_does_not_match_local_history")
  let keyId ← checkEvidence primitives request ledger sequence row head
  pure (progress.advance request sequence row head keyId)

def checkEvents (primitives : Primitives) (request : Request) (ledger : Ledger) :
    ℤ → Progress → List JournalRow → Except Raised Progress
  | _, progress, [] => .ok progress
  | sequence, progress, row :: rest => do
      let next ← checkEvent primitives request ledger sequence progress row
      checkEvents primitives request ledger (sequence + 1) next rest

/-- The plan for a provider without a state row. -/
def planWithoutState (primitives : Primitives) (request : Request) (ledger : Ledger) :
    Except Raised Plan := do
  raiseUnless (ledger.journal.length = 0 ∧ ledger.evidence.length = 0 ∧
    ledger.accepted.length = 0)
    (recoveryError "recovery_local_state_missing_with_existing_records")
  raiseUnless (request.anchor = (0, genesis))
    (recoveryError "recovery_local_state_missing_for_non_genesis_anchor")
  pure (makePlan primitives request.providerId request.anchor (0, genesis) [])

/-- The plan for a provider whose journal ends in the state row. -/
def planFromState (primitives : Primitives) (request : Request) (ledger : Ledger)
    (state : StateRow) : Except Raised Plan := do
  raiseUnless (0 ≤ state.sequence) (recoveryError "recovery_local_state_invalid")
  raiseUnless (request.anchor.1 ≤ state.sequence)
    (recoveryError "recovery_anchor_ahead_of_local_registry")
  raiseUnless (ledger.journal.length = state.sequence ∧ ledger.evidence.length = state.sequence)
    (recoveryError "recovery_journal_or_evidence_count_mismatch")
  raiseUnless (ledger.accepted.length = state.sequence)
    (recoveryError "recovery_accepted_row_count_mismatch")
  let progress ← checkEvents primitives request ledger 1 ⟨genesis, genesis, []⟩
    (inOrder ledger.journal)
  raiseUnless (¬(state.sequence = 0 ∧ state.head ≠ genesis))
    (recoveryError "recovery_empty_state_head_invalid")
  raiseUnless (progress.previous = state.head) (recoveryError "recovery_terminal_state_mismatch")
  raiseUnless ((if request.anchor.1 = 0 then genesis else progress.observedAnchorHead) =
    request.anchor.2) (recoveryError "recovery_anchor_does_not_match_local_history")
  pure (makePlan primitives request.providerId request.anchor (state.sequence, state.head)
    progress.suffix)

/-- `build_replay_recovery_plan`, whose reads share one snapshot. -/
def buildReplayRecoveryPlan (primitives : Primitives) (request : Request)
    (registry : Registry) : Except Raised Plan := do
  raiseUnless (isBlank request.providerId = false) (recoveryError "recovery_provider_id_invalid")
  raiseUnless (0 ≤ request.anchor.1) (recoveryError "recovery_anchor_sequence_invalid")
  raiseUnless (isSha256 request.anchor.2 = true) (recoveryError "recovery_anchor_head_invalid")
  raiseUnless (¬(request.anchor.1 = 0 ∧ request.anchor.2 ≠ genesis))
    (recoveryError "recovery_anchor_genesis_invalid")
  let ledger := registry.ledgerOf request.providerId
  match ledger.state with
  | none => planWithoutState primitives request ledger
  | some state => planFromState primitives request ledger state

/-! ## What a plan was made from -/

/-- The rows have the sequences from the given one on. -/
def Numbered : ℤ → List JournalRow → Prop
  | _, [] => True
  | sequence, row :: rest => row.sequence = sequence ∧ Numbered (sequence + 1) rest

/-- The evidence is signed for the event that it states. -/
def Attests (primitives : Primitives) (request : Request)
    (evidence : ReplayRegistry.EvidenceRow) : Prop :=
  ∃ dossier envelope verified,
    primitives.loads evidence.dossierJson = some dossier ∧
      primitives.loads evidence.envelopeJson = some envelope ∧
      verifyIndependentRunnerAttestation primitives.attestations dossier envelope
        request.trustedPublicKeys = .ok verified ∧
      verified.dossier.providerId = request.providerId ∧
      verified.dossier.runId = evidence.runId ∧ verified.dossier.nonce = evidence.nonce ∧
      verified.receiptSha256 = evidence.receiptSha256

/-- A provider's records stand behind a plan: the journal is a chain from the
genesis through the anchor to the state row, and every event has the one piece of
signed evidence and the one accepted row that state it. -/
structure Vouched (primitives : Primitives) (request : Request) (ledger : Ledger)
    (state : StateRow) : Prop where
  sequences : (inOrder ledger.journal).map JournalRow.sequence =
    (List.range ledger.journal.length).map fun (index : ℕ) => 1 + (index : ℤ)
  chain : Linked (eventDigest primitives.toPrimitives request.providerId) genesis
    ((inOrder ledger.journal).map JournalRow.link) state.head
  last : state.sequence = ledger.journal.length
  anchorInRange : 0 ≤ request.anchor.1 ∧ request.anchor.1 ≤ ledger.journal.length
  anchor : Linked (eventDigest primitives.toPrimitives request.providerId) genesis
    (((inOrder ledger.journal).take request.anchor.1.toNat).map JournalRow.link)
    request.anchor.2
  evidence : ∀ row ∈ ledger.journal, ∃ evidence ∈ ledger.evidence,
    evidence.sequence = row.sequence ∧ evidence.reservation = row.reservation ∧
      evidence.journalHead = row.head ∧ Attests primitives request evidence ∧
      ∀ other ∈ ledger.evidence, other.sequence = row.sequence ∨ other.runId = row.runId ∨
        other.nonce = row.nonce → other = evidence
  accepted : ∀ row ∈ ledger.journal, ∃ accepted ∈ ledger.accepted,
    accepted.reservation = row.reservation ∧
      ∀ other ∈ ledger.accepted, other.runId = row.runId ∨ other.nonce = row.nonce →
        other = accepted
  /-- No evidence and no accepted row is left over. -/
  counts : ledger.evidence.length = ledger.journal.length ∧
    ledger.accepted.length = ledger.journal.length

section Soundness

variable {primitives : Primitives} {request : Request} {ledger : Ledger}

theorem numbered_iff {sequence : ℤ} {rows : List JournalRow} :
    Numbered sequence rows ↔
      rows.map JournalRow.sequence =
        (List.range rows.length).map fun (index : ℕ) => sequence + index := by
  induction rows generalizing sequence with
  | nil => simp [Numbered]
  | cons row rest ih =>
      rw [Numbered, ih, List.length_cons, List.range_succ_eq_map]
      simp [Function.comp_def, Int.add_assoc, Int.add_comm 1]

theorem states_iff {stated : Json} {text : String} :
    states stated text = true ↔ stated = .text text := by
  rw [states, decide_eq_true_eq, Json.text?_eq_some_iff]

theorem verifyEvidence_eq_ok_iff {dossier envelope : Json} {verified : VerifiedAttestation} :
    verifyEvidence primitives request dossier envelope = .ok verified ↔
      verifyIndependentRunnerAttestation primitives.attestations dossier envelope
        request.trustedPublicKeys = .ok verified := by
  rw [verifyEvidence]
  split <;> simp [*]

/-- The evidence of an event and its acceptance. -/
theorem checkEvidence_eq_ok {sequence : ℤ} {row : JournalRow} {head keyId : String}
    (hchecked : checkEvidence primitives request ledger sequence row head = .ok keyId) :
    (∃ evidence ∈ ledger.evidence, evidence.sequence = sequence ∧
      evidence.reservation = row.reservation ∧ evidence.journalHead = head ∧
      Attests primitives request evidence) ∧
    ∃ accepted ∈ ledger.accepted, accepted.reservation = row.reservation := by
  obtain ⟨evidence, hbound, haccepting⟩ := orRaise_bind_eq_ok hchecked
  obtain ⟨haccepted, hdossiers⟩ := raiseUnless_bind_eq_ok haccepting
  obtain ⟨dossier, hdossier, henvelopes⟩ := orRaise_bind_eq_ok hdossiers
  obtain ⟨envelope, henvelope, hverifying⟩ := orRaise_bind_eq_ok henvelopes
  obtain ⟨verified, hverified, hbinding⟩ := bind_eq_ok hverifying
  obtain ⟨⟨hprovider, hrun, hnonce, hreceipt⟩, -⟩ := raiseUnless_bind_eq_ok hbinding
  rw [verifyEvidence_eq_ok_iff] at hverified
  rw [states_iff] at hprovider hrun hnonce
  obtain ⟨hfound, hstated⟩ := Option.filter_eq_some_iff.mp hbound
  obtain ⟨hreservation, hhead⟩ : evidence.reservation = row.reservation ∧
      evidence.journalHead = head := by simpa using hstated
  obtain ⟨hverifiedRun, hverifiedNonce, hverifiedProvider, -⟩ :=
    IndependentRunnerAttestation.verify_eq_ok hverified
  have hrow : evidence.runId = row.runId ∧ evidence.nonce = row.nonce ∧
      evidence.receiptSha256 = row.receiptSha256 := by
    simpa [ReplayRegistry.EvidenceRow.reservation, JournalRow.reservation] using hreservation
  constructor
  · refine ⟨evidence, List.mem_of_find?_eq_some hfound, by simpa using List.find?_some hfound,
      hreservation, hhead, dossier, envelope, verified, hdossier, henvelope, hverified, ?_, ?_, ?_,
      hreceipt.trans hrow.2.2.symm⟩
    · exact Json.text.inj (hverifiedProvider.symm.trans hprovider)
    · exact (Json.text.inj (hverifiedRun.symm.trans hrun)).trans hrow.1.symm
    · exact (Json.text.inj (hverifiedNonce.symm.trans hnonce)).trans hrow.2.1.symm
  · obtain ⟨accepted, hfind, hreceiptSha256⟩ := Option.map_eq_some_iff.mp haccepted
    obtain ⟨hacceptedRun, hacceptedNonce⟩ : accepted.runId = row.runId ∧
        accepted.nonce = row.nonce := by simpa using List.find?_some hfind
    refine ⟨accepted, List.mem_of_find?_eq_some hfind, ?_⟩
    rw [AcceptedRow.reservation, JournalRow.reservation, hacceptedRun, hacceptedNonce,
      hreceiptSha256]

/-- What the loop has checked once it is over. -/
theorem checkEvents_eq_ok {sequence : ℤ} {progress final : Progress} {rows : List JournalRow}
    (hchecked : checkEvents primitives request ledger sequence progress rows = .ok final) :
    Numbered sequence rows ∧
      Linked (eventDigest primitives.toPrimitives request.providerId) progress.previous
        (rows.map JournalRow.link) final.previous ∧
      ∀ row ∈ rows, (row.sequence = request.anchor.1 → row.head = request.anchor.2) ∧
        ∃ keyId, checkEvidence primitives request ledger row.sequence row row.head =
          .ok keyId := by
  induction rows generalizing sequence progress with
  | nil =>
      obtain rfl := Except.ok.inj hchecked
      exact ⟨trivial, rfl, fun _ hmem => nomatch hmem⟩
  | cons row rest ih =>
      obtain ⟨next, hevent, hrest⟩ := bind_eq_ok hchecked
      obtain ⟨⟨hsequence, hprevious, hhead⟩, hanchoring⟩ := raiseUnless_bind_eq_ok hevent
      obtain ⟨hanchor, hevidencing⟩ := raiseUnless_bind_eq_ok hanchoring
      obtain ⟨keyId, hkeyId, hnext⟩ := bind_eq_ok hevidencing
      obtain rfl := Except.ok.inj hnext
      obtain ⟨hnumbered, hlinked, hrows⟩ := ih hrest
      rw [← hhead] at hanchor hkeyId
      refine ⟨⟨hsequence, hnumbered⟩, ⟨hprevious, ?_, ?_⟩, ?_⟩
      · rw [eventDigest, JournalRow.link, hsequence]
        exact hhead
      · rw [JournalRow.link, hhead]
        exact hlinked
      · intro other hmem
        rcases List.mem_cons.mp hmem with rfl | htail
        · constructor
          · intro hat
            by_contra hne
            exact hanchor ⟨hsequence.symm.trans hat, hne⟩
          · rw [hsequence]
            exact ⟨keyId, hkeyId⟩
        · exact hrows other htail

/-- The anchor's head ends the chain of the events up to its sequence. -/
theorem linked_take {rows : List JournalRow} {head anchorHead : String} {count : ℕ}
    {digest : EventBody → String → String}
    (hnumbered : Numbered 1 rows) (hlinked : Linked digest genesis (rows.map JournalRow.link) head)
    (hcount : count ≤ rows.length) (hzero : count = 0 → anchorHead = genesis)
    (hanchor : ∀ row ∈ rows, row.sequence = count → row.head = anchorHead) :
    Linked digest genesis ((rows.take count).map JournalRow.link) anchorHead := by
  have hsplit := hlinked
  rw [← List.take_append_drop count rows, List.map_append, Linked.append_iff] at hsplit
  obtain ⟨middle, hearlier, -⟩ := hsplit
  suffices hmiddle : middle = anchorHead by rwa [← hmiddle]
  cases count with
  | zero =>
      rw [hzero rfl]
      exact hearlier
  | succ index =>
      have hlast := hearlier.head_eq
      have hindex : index < rows.length := by omega
      rw [List.take_add_one, List.getElem?_eq_getElem hindex] at hlast
      simp only [Option.toList_some, List.map_append, List.map_singleton, List.getLast?_concat,
        Option.map_some, Option.getD_some] at hlast
      have hhead : middle = rows[index].head := hlast
      rw [hhead]
      apply hanchor _ (List.getElem_mem hindex)
      rw [numbered_iff] at hnumbered
      have hsequence := congrArg (fun sequences => sequences[index]?) hnumbered
      simp [hindex] at hsequence
      omega

/-- What a plan was made from. -/
theorem vouched_of_planFromState {registry : Registry} {state : StateRow} {plan : Plan}
    (hgenesis : ¬(request.anchor.1 = 0 ∧ request.anchor.2 ≠ genesis))
    (hanchored : 0 ≤ request.anchor.1)
    (hplan : planFromState primitives request (registry.ledgerOf request.providerId) state =
      .ok plan) :
    Vouched primitives request (registry.ledgerOf request.providerId) state := by
  obtain ⟨-, hahead⟩ := raiseUnless_bind_eq_ok hplan
  obtain ⟨hrange, hcounted⟩ := raiseUnless_bind_eq_ok hahead
  obtain ⟨⟨hjournal, hevidence⟩, haccepting⟩ := raiseUnless_bind_eq_ok hcounted
  obtain ⟨haccepted, hchecking⟩ := raiseUnless_bind_eq_ok haccepting
  obtain ⟨progress, hchecked, hempty⟩ := bind_eq_ok hchecking
  obtain ⟨-, hterminal⟩ := raiseUnless_bind_eq_ok hempty
  obtain ⟨hhead, -⟩ := raiseUnless_bind_eq_ok hterminal
  obtain ⟨hnumbered, hlinked, hrows⟩ := checkEvents_eq_ok hchecked
  have hperm : (inOrder (registry.ledgerOf request.providerId).journal).Perm
      (registry.ledgerOf request.providerId).journal := List.perm_insertionSort _ _
  have hsupported : ∀ row ∈ (registry.ledgerOf request.providerId).journal, ∃ keyId,
      checkEvidence primitives request (registry.ledgerOf request.providerId) row.sequence row
        row.head = .ok keyId := fun row hmem => (hrows row (hperm.mem_iff.mpr hmem)).2
  rw [hhead] at hlinked
  exact {
    sequences := by
      rw [numbered_iff.mp hnumbered, hperm.length_eq]
    chain := hlinked
    last := hjournal.symm
    anchorInRange := ⟨hanchored, by rw [hjournal]; exact hrange⟩
    anchor := by
      apply linked_take hnumbered hlinked
      · rw [hperm.length_eq]
        omega
      · intro hzero
        by_contra hne
        exact hgenesis ⟨by omega, hne⟩
      · intro row hmem hsequence
        apply (hrows row hmem).1
        omega
    evidence := by
      intro row hmem
      obtain ⟨keyId, hchecked⟩ := hsupported row hmem
      obtain ⟨⟨evidence, hevidenceMem, hsequence, hreservation, hjournalHead, hattests⟩, -⟩ :=
        checkEvidence_eq_ok hchecked
      obtain ⟨hrun, hnonce, -⟩ := Reservation.mk.inj hreservation
      refine ⟨evidence, hevidenceMem, hsequence, hreservation, hjournalHead, hattests, ?_⟩
      rintro other hother (hsame | hsame | hsame)
      · exact List.inj_on_of_nodup_map (nodup_column registry.evidence.sequences) hother
          hevidenceMem (hsame.trans hsequence.symm)
      · exact List.inj_on_of_nodup_map (nodup_column registry.evidence.runs) hother
          hevidenceMem (hsame.trans hrun.symm)
      · exact List.inj_on_of_nodup_map (nodup_column registry.evidence.nonces) hother
          hevidenceMem (hsame.trans hnonce.symm)
    accepted := by
      intro row hmem
      obtain ⟨keyId, hchecked⟩ := hsupported row hmem
      obtain ⟨-, accepted, hacceptedMem, hreservation⟩ := checkEvidence_eq_ok hchecked
      obtain ⟨hrun, hnonce, -⟩ := Reservation.mk.inj hreservation
      refine ⟨accepted, hacceptedMem, hreservation, ?_⟩
      rintro other hother (hsame | hsame)
      · exact List.inj_on_of_nodup_map (nodup_column registry.accepted.primaryKey) hother
          hacceptedMem (hsame.trans hrun.symm)
      · exact List.inj_on_of_nodup_map (nodup_column registry.accepted.uniqueColumn) hother
          hacceptedMem (hsame.trans hnonce.symm)
    counts := by omega }

end Soundness

/-! ## Recorded journals have plans -/

/-- The head of the event with the sequence, and the genesis before the first. -/
def headAt (journal : List JournalRow) (sequence : ℤ) : String :=
  ((journal.find? fun row => row.sequence = sequence).map JournalRow.head).getD genesis

/-- What a plan repeats of an event. -/
def JournalRow.stamp (row : JournalRow) : ℤ × Reservation × String :=
  (row.sequence, row.reservation, row.head)

def SuffixEvent.stamp (event : SuffixEvent) : ℤ × Reservation × String :=
  (event.sequence, ⟨event.runId, event.nonce, event.receiptSha256⟩, event.journalHead)

/-- `json.loads` reads back the documents of the calls. -/
def ReadsBack (primitives : Primitives) (acts : List Act) : Prop :=
  ∀ call, Act.record call ∈ acts → ∀ text,
    (primitives.attestations.dossiers.canonicalJson call.dossier.val = some text →
      primitives.loads text = some call.dossier.val) ∧
    (primitives.attestations.dossiers.canonicalJson call.envelope.val = some text →
      primitives.loads text = some call.envelope.val)

/-- The keys of the provider's recorded attestations are still trusted. -/
def StillTrusted (primitives : Primitives) (acts : List Act) (request : Request) : Prop :=
  ∀ call, Act.record call ∈ acts → ∀ verified,
    verifyIndependentRunnerAttestation primitives.attestations call.dossier.val
        call.envelope.val call.trustedPublicKeys = .ok verified →
      verified.dossier.providerId = request.providerId →
        request.trustedPublicKeys verified.keyId = call.trustedPublicKeys verified.keyId

section Completeness

variable {primitives : Primitives} {request : Request} {ledger : Ledger}

/-- The loop accepts a chain that meets the anchor and has its evidence. -/
theorem checkEvents_of_valid {sequence : ℤ} {progress : Progress} {rows : List JournalRow}
    {head : String} (hnumbered : Numbered sequence rows)
    (hlinked : Linked (eventDigest primitives.toPrimitives request.providerId) progress.previous
      (rows.map JournalRow.link) head)
    (hanchor : ∀ row ∈ rows, row.sequence = request.anchor.1 → row.head = request.anchor.2)
    (hevidence : ∀ row ∈ rows, ∃ keyId,
      checkEvidence primitives request ledger row.sequence row row.head = .ok keyId) :
    ∃ final, checkEvents primitives request ledger sequence progress rows = .ok final ∧
      final.previous = head ∧
      (progress.observedAnchorHead = request.anchor.2 ∨
        (∃ row ∈ rows, row.sequence = request.anchor.1) →
          final.observedAnchorHead = request.anchor.2) ∧
      final.suffix.map SuffixEvent.stamp = progress.suffix.map SuffixEvent.stamp ++
        (rows.filter fun row => request.anchor.1 < row.sequence).map JournalRow.stamp := by
  induction rows generalizing sequence progress with
  | nil =>
      have hhead : head = progress.previous := hlinked
      refine ⟨progress, rfl, hhead.symm, ?_, by simp⟩
      rintro (hobserved | ⟨row, hmem, -⟩)
      · exact hobserved
      · cases hmem
  | cons row rest ih =>
      obtain ⟨rfl, hrest⟩ := hnumbered
      obtain ⟨hprevious, hhash, hlinkedRest⟩ := hlinked
      obtain ⟨keyId, hkeyId⟩ := hevidence row (by simp)
      have hhead : row.head = primitives.eventHash ⟨request.providerId, row.sequence,
          progress.previous, row.runId, row.nonce, row.receiptSha256⟩ := hhash
      obtain ⟨final, hfinal, hfinalHead, hobserved, hsuffix⟩ :=
        @ih (row.sequence + 1) (progress.advance request row.sequence row row.head keyId) hrest
          hlinkedRest (fun other hmem => hanchor other (List.mem_cons_of_mem _ hmem))
          (fun other hmem => hevidence other (List.mem_cons_of_mem _ hmem))
      refine ⟨final, ?_, hfinalHead, ?_, ?_⟩
      · rw [checkEvents, bind_eq_ok_iff]
        refine ⟨_, ?_, hfinal⟩
        rw [checkEvent, ← hhead, raiseUnless_bind_eq_ok_iff]
        refine ⟨⟨rfl, hprevious, rfl⟩, ?_⟩
        rw [raiseUnless_bind_eq_ok_iff]
        refine ⟨fun hat => hat.2 (hanchor row (by simp) hat.1), ?_⟩
        rw [bind_eq_ok_iff]
        exact ⟨keyId, hkeyId, rfl⟩
      · intro hseen
        apply hobserved
        by_cases hat : row.sequence = request.anchor.1
        · left
          rw [Progress.advance, if_pos hat]
          exact hanchor row (by simp) hat
        · rcases hseen with hbefore | ⟨other, hmem, hother⟩
          · left
            rw [Progress.advance, if_neg hat]
            exact hbefore
          · right
            rcases List.mem_cons.mp hmem with rfl | htail
            · exact absurd hother hat
            · exact ⟨other, htail, hother⟩
      · rw [hsuffix, Progress.advance]
        by_cases hafter : request.anchor.1 < row.sequence
        · simp [hafter, SuffixEvent.stamp, JournalRow.stamp, JournalRow.reservation]
        · simp [hafter]

/-- The events after a sequence are those that remain after its count. -/
theorem filter_numbered {sequence : ℤ} {rows : List JournalRow}
    (hnumbered : Numbered sequence rows) (count : ℕ) :
    (rows.filter fun row => sequence + count ≤ row.sequence) = rows.drop count := by
  induction rows generalizing sequence count with
  | nil => simp
  | cons row rest ih =>
      obtain ⟨hrow, hrest⟩ := hnumbered
      cases count with
      | zero =>
          have hall := List.filter_eq_self.mp (ih hrest 0)
          rw [List.drop_zero, List.filter_eq_self]
          intro other hmem
          rcases List.mem_cons.mp hmem with rfl | htail
          · simp [hrow]
          · have hlater : sequence + 1 ≤ other.sequence := by simpa using hall other htail
            simp only [decide_eq_true_eq]
            omega
      | succ count =>
          have hless : ¬(sequence + ((count + 1 : ℕ) : ℤ) ≤ row.sequence) := by omega
          have htail := ih hrest count
          rw [List.filter_cons_of_neg (by simpa using hless), List.drop_succ_cons, ← htail]
          apply List.filter_congr
          intro other _
          simp only [decide_eq_decide]
          omega

/-- A recorded event has the evidence that a plan asks for. -/
theorem checkEvidence_of_attested {registry : Registry} {row : JournalRow}
    (hconsistent : (registry.ledgerOf request.providerId).Consistent primitives.toPrimitives
      request.providerId)
    (hattests : ∀ evidence ∈ (registry.ledgerOf request.providerId).evidence,
      Attests primitives request evidence)
    (hrow : row ∈ (registry.ledgerOf request.providerId).journal) :
    ∃ keyId, checkEvidence primitives request (registry.ledgerOf request.providerId) row.sequence
      row row.head = .ok keyId := by
  have hstamp : (row.sequence, row.reservation, row.head) ∈
      (registry.ledgerOf request.providerId).journal.map fun row =>
        (row.sequence, row.reservation, row.head) := List.mem_map_of_mem hrow
  rw [← hconsistent.evidence] at hstamp
  obtain ⟨evidence, hevidence, heq⟩ := List.mem_map.mp hstamp
  obtain ⟨hsequence, hstated⟩ := Prod.mk.inj heq
  obtain ⟨hreservation, hhead⟩ := Prod.mk.inj hstated
  obtain ⟨hrun, hnonce, hreceipt⟩ := Reservation.mk.inj hreservation
  have hbound : boundEvidence (registry.ledgerOf request.providerId) row.sequence row row.head =
      some evidence := by
    have hfound := Table.find?_of_nodup (nodup_column registry.evidence.sequences) hevidence
    rw [boundEvidence, ← hsequence, Option.filter_eq_some_iff]
    exact ⟨hfound, by simp [hreservation, hhead]⟩
  have haccepted : acceptedReceipt (registry.ledgerOf request.providerId) row =
      some row.receiptSha256 := by
    have hmem : row.reservation ∈
        (registry.ledgerOf request.providerId).journal.map JournalRow.reservation :=
      List.mem_map_of_mem hrow
    rw [← hconsistent.accepted] at hmem
    obtain ⟨accepted, hacceptedMem, hsame⟩ := List.mem_map.mp hmem
    obtain ⟨hacceptedRun, hacceptedNonce, hacceptedReceipt⟩ := Reservation.mk.inj hsame
    have hfind : ((registry.ledgerOf request.providerId).accepted.find? fun accepted =>
        accepted.runId = row.runId ∧ accepted.nonce = row.nonce).isSome = true := by
      rw [List.find?_isSome]
      exact ⟨accepted, hacceptedMem, decide_eq_true ⟨hacceptedRun, hacceptedNonce⟩⟩
    obtain ⟨found, hfound⟩ := Option.isSome_iff_exists.mp hfind
    have hfoundRow : found.runId = row.runId ∧ found.nonce = row.nonce := by
      simpa using List.find?_some hfound
    have hunique : found = accepted :=
      List.inj_on_of_nodup_map (nodup_column registry.accepted.primaryKey)
        (List.mem_of_find?_eq_some hfound) hacceptedMem (hfoundRow.1.trans hacceptedRun.symm)
    rw [acceptedReceipt, hfound, hunique, Option.map_some, hacceptedReceipt]
  obtain ⟨dossier, envelope, verified, hdossier, henvelope, hverified, hprovider, hverifiedRun,
    hverifiedNonce, hverifiedReceipt⟩ := hattests evidence hevidence
  obtain ⟨hdossierRun, hdossierNonce, hdossierProvider, -⟩ :=
    IndependentRunnerAttestation.verify_eq_ok hverified
  refine ⟨verified.keyId, ?_⟩
  rw [checkEvidence, orRaise_bind_eq_ok_iff]
  refine ⟨evidence, hbound, ?_⟩
  rw [raiseUnless_bind_eq_ok_iff]
  refine ⟨haccepted, ?_⟩
  rw [orRaise_bind_eq_ok_iff]
  refine ⟨dossier, hdossier, ?_⟩
  rw [orRaise_bind_eq_ok_iff]
  refine ⟨envelope, henvelope, ?_⟩
  rw [bind_eq_ok_iff]
  refine ⟨verified, verifyEvidence_eq_ok_iff.mpr hverified, ?_⟩
  rw [raiseUnless_bind_eq_ok_iff]
  refine ⟨⟨?_, ?_, ?_, hverifiedReceipt.trans hreceipt⟩, rfl⟩
  · rw [states_iff, hdossierProvider, hprovider]
  · rw [states_iff, hdossierRun, hverifiedRun, hrun]
  · rw [states_iff, hdossierNonce, hverifiedNonce, hnonce]

theorem mem_evidence_ofEntries {entries : List Entry} {evidence : ReplayRegistry.EvidenceRow}
    (hmem : evidence ∈ (Ledger.ofEntries primitives.toPrimitives entries).evidence) :
    ∃ entry ∈ entries, ∃ sequence head, evidence = entry.evidenceRow sequence head := by
  induction entries using List.reverseRecOn with
  | nil => cases hmem
  | append_singleton earlier entry ih =>
      rw [Ledger.ofEntries_concat] at hmem
      rcases List.mem_append.mp hmem with hold | hnew
      · obtain ⟨other, hother, hrow⟩ := ih hold
        exact ⟨other, List.mem_append_left _ hother, hrow⟩
      · exact ⟨entry, by simp, _, _, List.mem_singleton.mp hnew⟩

/-- Recorded evidence verifies while its key is trusted. -/
theorem attests_of_isOf {acts : List Act} {call : ReplayRegistry.RecordCall} {entry : Entry}
    {sequence : ℤ} {head : String} (hreads : ReadsBack primitives acts)
    (htrusted : StillTrusted primitives acts request) (hcall : .record call ∈ acts)
    (hentry : Entry.IsOf primitives.toPrimitives call entry)
    (hprovider : entry.providerId = request.providerId) :
    Attests primitives request (entry.evidenceRow sequence head) := by
  obtain ⟨verified, dossierJson, envelopeJson, hverified, hdossier, henvelope, rfl⟩ := hentry
  exact ⟨call.dossier.val, call.envelope.val, verified,
    (hreads call hcall dossierJson).1 hdossier, (hreads call hcall envelopeJson).2 henvelope,
    IndependentRunnerAttestation.verify_of_trusted hverified
      (htrusted call hcall verified hverified hprovider), hprovider, rfl, rfl, rfl⟩

theorem numbered_of_consistent {providerId : String}
    (hconsistent : ledger.Consistent primitives.toPrimitives providerId) :
    Numbered 1 ledger.journal := by
  rw [numbered_iff, hconsistent.sequences]
  apply List.map_congr_left
  intro index _
  omega

theorem inOrder_of_numbered {sequence : ℤ} {rows : List JournalRow}
    (hnumbered : Numbered sequence rows) : inOrder rows = rows := by
  have hsorted : (rows.map JournalRow.sequence).Pairwise (· ≤ ·) := by
    rw [numbered_iff.mp hnumbered, List.pairwise_map]
    apply List.pairwise_lt_range.imp
    intro left right hless
    omega
  exact (List.pairwise_map.mp hsorted).insertionSort_eq

theorem mem_range_of_numbered {rows : List JournalRow} (hnumbered : Numbered 1 rows) (wanted : ℤ) :
    (∃ row ∈ rows, row.sequence = wanted) ↔ 1 ≤ wanted ∧ wanted ≤ rows.length := by
  have hmem : wanted ∈ rows.map JournalRow.sequence ↔ 1 ≤ wanted ∧ wanted ≤ rows.length := by
    rw [numbered_iff.mp hnumbered, List.mem_map]
    constructor
    · rintro ⟨index, hindex, rfl⟩
      rw [List.mem_range] at hindex
      omega
    · intro hrange
      exact ⟨(wanted - 1).toNat, by rw [List.mem_range]; omega, by omega⟩
  rw [← hmem, List.mem_map]

theorem headAt_of_mem {rows : List JournalRow}
    (hnodup : (rows.map JournalRow.sequence).Nodup) {row : JournalRow} (hrow : row ∈ rows) :
    headAt rows row.sequence = row.head := by
  rw [headAt, Table.find?_of_nodup hnodup hrow]
  rfl

theorem headAt_zero {rows : List JournalRow} (hnumbered : Numbered 1 rows) :
    headAt rows 0 = genesis := by
  have hnone : rows.find? (fun row => row.sequence = 0) = none := by
    rw [List.find?_eq_none]
    intro row hrow hzero
    have hrange := (mem_range_of_numbered hnumbered 0).mp ⟨row, hrow, of_decide_eq_true hzero⟩
    omega
  rw [headAt, hnone]
  rfl

/-- Every head of a journal is a SHA-256 digest in hexadecimal. -/
theorem isSha256_headAt {rows : List JournalRow} {head : String} {sequence : ℤ}
    (hhashes : ∀ event, isSha256 (primitives.eventHash event) = true)
    (hlinked : Linked (eventDigest primitives.toPrimitives request.providerId) genesis
      (rows.map JournalRow.link) head) : isSha256 (headAt rows sequence) = true := by
  rw [headAt]
  cases hfind : rows.find? fun row => row.sequence = sequence with
  | none => decide +kernel
  | some row =>
      have hrow : row ∈ rows := List.mem_of_find?_eq_some hfind
      have hhash := hlinked.hash_eq (List.mem_map_of_mem hrow)
      rw [Option.map_some, Option.getD_some]
      have hhead : row.head = row.link.hash := rfl
      rw [hhead, hhash]
      exact hhashes _

/-- A consistent ledger with verified evidence has a plan for each of its heads. -/
theorem plan_of_attested {registry : Registry} {count : ℕ}
    (hconsistent : (registry.ledgerOf request.providerId).Consistent primitives.toPrimitives
      request.providerId)
    (hattests : ∀ evidence ∈ (registry.ledgerOf request.providerId).evidence,
      Attests primitives request evidence)
    (hhashes : ∀ event, isSha256 (primitives.eventHash event) = true)
    (hprovider : isBlank request.providerId = false)
    (hcount : count ≤ (registry.ledgerOf request.providerId).journal.length)
    (hrecorded : (registry.ledgerOf request.providerId).journal ≠ [])
    (hanchor : request.anchor =
      ((count : ℤ), headAt (registry.ledgerOf request.providerId).journal count)) :
    ∃ plan, buildReplayRecoveryPlan primitives request registry = .ok plan ∧
      plan.suffix.map SuffixEvent.stamp =
        ((registry.ledgerOf request.providerId).journal.drop count).map JournalRow.stamp := by
  have hsequence : request.anchor.1 = count := by rw [hanchor]
  have hhead : request.anchor.2 = headAt (registry.ledgerOf request.providerId).journal count := by
    rw [hanchor]
  have hnumbered := numbered_of_consistent hconsistent
  have hsorted := inOrder_of_numbered hnumbered
  have hnodup : ((registry.ledgerOf request.providerId).journal.map JournalRow.sequence).Nodup :=
    nodup_column registry.journal.sequences
  have hevidenceCount := congrArg List.length hconsistent.evidence
  have hacceptedCount := congrArg List.length hconsistent.accepted
  rw [List.length_map, List.length_map] at hevidenceCount hacceptedCount
  have hzero : count = 0 → request.anchor.2 = genesis := by
    intro hzero
    rw [hhead, hzero]
    exact headAt_zero hnumbered
  have hrows : ∀ row ∈ (registry.ledgerOf request.providerId).journal,
      row.sequence = request.anchor.1 → row.head = request.anchor.2 := by
    intro row hrow hat
    rw [hhead, ← hsequence, ← hat]
    exact (headAt_of_mem hnodup hrow).symm
  obtain ⟨final, hfinal, hprevious, hobserved, hsuffix⟩ :=
    @checkEvents_of_valid primitives request (registry.ledgerOf request.providerId) 1
      ⟨genesis, genesis, []⟩ _ _ hnumbered hconsistent.chain hrows
      fun row hrow => checkEvidence_of_attested hconsistent hattests hrow
  cases hstate : (registry.ledgerOf request.providerId).state with
  | none =>
      have hlast : (0 : ℤ) = (registry.ledgerOf request.providerId).journal.length := by
        have hlength := hconsistent.last
        rw [Ledger.last, hstate] at hlength
        exact hlength
      exact absurd (List.length_eq_zero_iff.mp (by omega)) hrecorded
  | some state =>
      have hlast : (registry.ledgerOf request.providerId).last = (state.sequence, state.head) := by
        rw [Ledger.last, hstate]
        rfl
      have hlength := hconsistent.last
      rw [hlast] at hlength hprevious
      refine ⟨makePlan primitives request.providerId request.anchor (state.sequence, state.head)
        final.suffix, ?_, ?_⟩
      · rw [buildReplayRecoveryPlan, raiseUnless_bind_eq_ok_iff]
        refine ⟨hprovider, ?_⟩
        rw [raiseUnless_bind_eq_ok_iff]
        refine ⟨by omega, ?_⟩
        rw [raiseUnless_bind_eq_ok_iff]
        refine ⟨by rw [hhead]; exact isSha256_headAt hhashes hconsistent.chain, ?_⟩
        rw [raiseUnless_bind_eq_ok_iff]
        refine ⟨fun hbad => hbad.2 (hzero (by omega)), ?_⟩
        simp only [hstate]
        rw [planFromState, raiseUnless_bind_eq_ok_iff]
        refine ⟨by omega, ?_⟩
        rw [raiseUnless_bind_eq_ok_iff]
        refine ⟨by omega, ?_⟩
        rw [raiseUnless_bind_eq_ok_iff]
        refine ⟨⟨hlength.symm, by omega⟩, ?_⟩
        rw [raiseUnless_bind_eq_ok_iff]
        refine ⟨by omega, ?_⟩
        rw [hsorted, bind_eq_ok_iff]
        refine ⟨final, hfinal, ?_⟩
        rw [raiseUnless_bind_eq_ok_iff]
        refine ⟨fun hbad => hrecorded (List.length_eq_zero_iff.mp (by omega)), ?_⟩
        rw [raiseUnless_bind_eq_ok_iff]
        refine ⟨hprevious, ?_⟩
        rw [raiseUnless_bind_eq_ok_iff]
        refine ⟨?_, rfl⟩
        split
        case isTrue hat => exact (hzero (by omega)).symm
        case isFalse hat =>
          apply hobserved
          right
          exact (mem_range_of_numbered hnumbered _).mpr ⟨by omega, by omega⟩
      · have hafter := filter_numbered hnumbered count
        rw [makePlan, hsuffix, ← hafter, List.map_nil, List.nil_append]
        congr 1
        apply List.filter_congr
        intro row _
        simp only [decide_eq_decide]
        omega

end Completeness

/-! ## Completeness and soundness -/

/-- The plan succeeds from every head of a recorded journal, with the events that
come after it. -/
def Complete (primitives : Primitives) (registry : Registry) (providerId : String)
    (trustedPublicKeys : String → Option Bytes) : Prop :=
  ∀ count ≤ (registry.journalOf providerId).length,
    ∃ plan, buildReplayRecoveryPlan primitives
        ⟨providerId, ((count : ℤ), headAt (registry.journalOf providerId) count),
          trustedPublicKeys⟩ registry = .ok plan ∧
      plan.suffix.map SuffixEvent.stamp =
        ((registry.journalOf providerId).drop count).map JournalRow.stamp

/-- The records of a provider whose plan succeeds: they stand behind the plan, or
there is no state row, no record at all and no anchored event. -/
def Sound (primitives : Primitives) (request : Request) (registry : Registry) (plan : Plan) :
    Prop :=
  match registry.state.lookup request.providerId with
  | some state => Vouched primitives request (registry.ledgerOf request.providerId) state
  | none => registry.ledgerOf request.providerId = .empty ∧ request.anchor = (0, genesis) ∧
      plan.suffix = []

/-- Recorded journals have plans, and a plan comes from records that stand behind
it, whatever the tables hold. -/
theorem plan_complete_and_sound (primitives : Primitives) :
    (∀ acts providerId trustedPublicKeys,
      let registry := run (step primitives.toPrimitives) .empty acts
      (∀ event, isSha256 (primitives.eventHash event) = true) → ReadsBack primitives acts →
        StillTrusted primitives acts ⟨providerId, (0, genesis), trustedPublicKeys⟩ →
        registry.journalOf providerId ≠ [] →
        Complete primitives registry providerId trustedPublicKeys) ∧
    ∀ request registry plan, buildReplayRecoveryPlan primitives request registry = .ok plan →
      Sound primitives request registry plan := by
  constructor
  · intro acts providerId trustedPublicKeys registry hhashes hreads htrusted hrecorded count hcount
    obtain ⟨entries, hledger, hentries⟩ := ledgerOf_run primitives.toPrimitives acts providerId
    have hconsistent : (registry.ledgerOf providerId).Consistent primitives.toPrimitives
        providerId := by
      rw [hledger]
      exact Ledger.consistent_ofEntries fun entry hmem => (hentries entry hmem).1
    have hattests : ∀ evidence ∈ (registry.ledgerOf providerId).evidence, Attests primitives
        ⟨providerId, (0, genesis), trustedPublicKeys⟩ evidence := by
      intro evidence hevidence
      rw [hledger] at hevidence
      obtain ⟨entry, hentry, sequence, head, rfl⟩ := mem_evidence_ofEntries hevidence
      obtain ⟨hprovider, call, hcall, hisOf⟩ := hentries entry hentry
      exact attests_of_isOf hreads htrusted hcall hisOf hprovider
    -- The provider of a recorded journal was named by a dossier.
    have hnamed : isBlank providerId = false := by
      cases entries with
      | nil => exact absurd (congrArg Ledger.journal hledger) hrecorded
      | cons entry rest =>
          obtain ⟨hprovider, call, -, verified, _, _, hverified, -, -, rfl⟩ :=
            hentries entry (by simp)
          rw [← hprovider]
          exact (IndependentRunnerAttestation.verify_eq_ok hverified).2.2.2
    exact @plan_of_attested primitives
      ⟨providerId, ((count : ℤ), headAt (registry.journalOf providerId) count),
        trustedPublicKeys⟩ registry count hconsistent hattests hhashes hnamed hcount hrecorded rfl
  · intro request registry plan hplan
    obtain ⟨-, hsequence⟩ := raiseUnless_bind_eq_ok hplan
    obtain ⟨hanchored, hhead⟩ := raiseUnless_bind_eq_ok hsequence
    obtain ⟨-, hgenesis⟩ := raiseUnless_bind_eq_ok hhead
    obtain ⟨hanchor, hbuilt⟩ := raiseUnless_bind_eq_ok hgenesis
    rw [Sound]
    split
    case h_1 state hstate =>
      have hledger : (registry.ledgerOf request.providerId).state = some state := hstate
      simp only [hledger] at hbuilt
      exact vouched_of_planFromState hanchor hanchored hbuilt
    case h_2 hstate =>
      have hledger : (registry.ledgerOf request.providerId).state = none := hstate
      simp only [hledger] at hbuilt
      obtain ⟨⟨hjournal, hevidence, haccepted⟩, hanchoring⟩ := raiseUnless_bind_eq_ok hbuilt
      obtain ⟨hzero, hmade⟩ := raiseUnless_bind_eq_ok hanchoring
      refine ⟨Ledger.ext ?_ ?_ ?_ hledger, hzero, ?_⟩
      · exact List.length_eq_zero_iff.mp haccepted
      · exact List.length_eq_zero_iff.mp hjournal
      · exact List.length_eq_zero_iff.mp hevidence
      · rw [← Except.ok.inj hmade]
        rfl

namespace Sample

open ReplayRegistry.Sample

def primitives : Primitives :=
  { ReplayRegistry.Sample.primitives with planHash := fun _ => eventHead }

theorem isSha256_eventHash (event : ReplayEvent) :
    isSha256 (primitives.eventHash event) = true := by
  have hdigests : isSha256 eventHead = true ∧
      isSha256 (String.ofList (List.replicate 64 'f')) = true := by
    decide +kernel
  simp only [primitives, ReplayRegistry.Sample.primitives]
  split
  · exact hdigests.1
  · exact hdigests.2

theorem canonicalJson_eq (value : Json) :
    primitives.attestations.dossiers.canonicalJson value = some (String.ofList (encode value)) :=
  rfl

theorem loads_eq (text : String) : primitives.loads text = loads text := by
  simp only [primitives, ReplayRegistry.Sample.primitives]

theorem loads_dossier : loads (String.ofList (encode dossier)) = some dossier := by
  rw [loads, if_pos rfl]

theorem loads_envelope : loads (String.ofList (encode envelope)) = some envelope := by
  have hdifferent : String.ofList (encode envelope) ≠ String.ofList (encode dossier) := by
    intro hsame
    have hthird := congrArg (fun text => (String.toList text)[3]?) hsame
    simp only [String.toList_ofList] at hthird
    revert hthird
    decide +kernel
  rw [loads, if_neg hdifferent, if_pos rfl]

theorem readsBack : ReadsBack primitives [.record call] := by
  intro other hcall text
  obtain rfl : other = call := by simpa using hcall
  constructor
  · intro htext
    have hdossier : call.dossier.val = dossier := rfl
    rw [hdossier, canonicalJson_eq] at htext
    rw [hdossier, loads_eq, ← Option.some.inj htext, loads_dossier]
  · intro htext
    have henvelope : call.envelope.val = envelope := rfl
    rw [henvelope, canonicalJson_eq] at htext
    rw [henvelope, loads_eq, ← Option.some.inj htext, loads_envelope]

theorem journal_recorded :
    (run (step primitives.toPrimitives) .empty [.record call]).journalOf "lab" ≠ [] := by
  obtain ⟨entries, hledger, hentries⟩ :=
    ledgerOf_run primitives.toPrimitives [.record call] "lab"
  have hconsistent : (Ledger.ofEntries primitives.toPrimitives entries).Consistent
      primitives.toPrimitives "lab" :=
    Ledger.consistent_ofEntries fun entry hmem => (hentries entry hmem).1
  have hlast := hconsistent.last
  rw [← hledger] at hlast
  intro hempty
  have hempty : ((run (step primitives.toPrimitives) .empty [.record call]).ledgerOf
      "lab").journal = [] := hempty
  rw [hempty, Ledger.last, Registry.ledgerOf] at hlast
  have hlookup : (run (step primitives.toPrimitives) .empty [.record call]).state.lookup "lab" =
      some ⟨"lab", 1, eventHead⟩ := lookup_recorded
  simp [hlookup] at hlast

end Sample

open Sample ReplayRegistry.Sample in
theorem plan_complete_and_sound_sample :
    let registry := run (step Sample.primitives.toPrimitives) .empty [.record call]
    Complete Sample.primitives registry "lab" call.trustedPublicKeys ∧
      ∃ request plan, buildReplayRecoveryPlan Sample.primitives request registry = .ok plan ∧
        Sound Sample.primitives request registry plan := by
  have htheorem := plan_complete_and_sound Sample.primitives
  have htrusted : StillTrusted Sample.primitives [.record call]
      ⟨"lab", (0, genesis), call.trustedPublicKeys⟩ := by
    intro other hcall _ _ _
    obtain rfl : other = call := by simpa using hcall
    rfl
  have hcomplete := htheorem.1 [.record call] "lab" call.trustedPublicKeys isSha256_eventHash
    readsBack htrusted journal_recorded
  obtain ⟨plan, hplan, -⟩ := hcomplete 0 (Nat.zero_le _)
  exact ⟨hcomplete, _, plan, hplan, htheorem.2 _ _ plan hplan⟩

/-- Without records and without a state row there is a plan for the genesis. -/
theorem not_always_state_row :
    ¬∀ primitives request registry plan,
      buildReplayRecoveryPlan primitives request registry = .ok plan →
        ∃ state, registry.state.lookup request.providerId = some state ∧
          Vouched primitives request (registry.ledgerOf request.providerId) state := by
  intro hstate
  have hbuilt : (buildReplayRecoveryPlan Sample.primitives ⟨"lab", (0, genesis), fun _ => none⟩
      Registry.empty).isOk = true := by
    decide +kernel
  cases hplan : buildReplayRecoveryPlan Sample.primitives ⟨"lab", (0, genesis), fun _ => none⟩
      Registry.empty with
  | error error =>
      rw [hplan] at hbuilt
      cases hbuilt
  | ok plan =>
      obtain ⟨state, hlookup, -⟩ := hstate _ _ _ plan hplan
      cases hlookup

end AegisForge.Shared.ReplayRegistryRecovery
