import AegisForge.Shared.PendingStanding

/-!
# Registrations and recoveries in any interleaving

Calls that stage, anchor, finalize and recover candidates establish what each of
their statements needs, whatever other calls do in between and wherever they stop.
-/

namespace AegisForge.Shared.PendingAnchoredReplay

open AegisForge.Core AegisForge.Concurrency
open IndependentRunnerAttestation (VerifiedAttestation verifyIndependentRunnerAttestation)
open ReplayRegistry (Ledger PendingRow PendingStatus Registry Recorded ReplayEvent
  Document genesis)
open AnchoredAttestationReplay (Delivery)
open StagedAdvance (Change)

abbrev Standing : Type := StagedAdvance.Standing String String String

abbrev PendingHistory : Type := History Statement World

/-! ## The rules -/

/-- Every anchor there ever was is an accepted point, or it is the anchor now. -/
def AlwaysAccounted (history : PendingHistory) : Prop :=
  ∀ event ∈ history.trace, ∀ providerId point,
    event.found.standing.authority providerId = some point →
      history.store.standing.Accounts origin providerId point

structure Invariant (primitives : Primitives) (history : PendingHistory) : Prop where
  sound : Sound primitives history.store
  accounted : AlwaysAccounted history

/-- No candidate that is staged has the hash of another one's event. -/
def IsCollisionFree (primitives : Primitives) (statement : Statement) (world : World) : Prop :=
  ∀ candidate, statement = .persistPending candidate →
    ∀ candidateId staged, world.candidate? candidateId = some staged →
      primitives.eventHash staged.event = primitives.eventHash candidate.event →
        staged.event = candidate.event

theorem Invariant.record {primitives : Primitives} {history : PendingHistory}
    {statement : Statement} (process : ℕ) (hinvariant : Invariant primitives history)
    (hrequires : Requires primitives statement history.store) :
    Invariant primitives (history.record (execute primitives) process statement) where
  sound := sound_execute statement hinvariant.sound hrequires
  accounted := by
    have hchange := change_execute statement hinvariant.sound hrequires
    intro event hevent providerId point hpoint
    refine hchange.accounts hinvariant.sound.kept ?_
    rcases List.mem_cons.mp hevent with rfl | hold
    · exact Or.inr hpoint
    · exact hinvariant.accounted event hold providerId point hpoint

def rules (primitives : Primitives) : Rules (execute primitives) :=
  Rules.ofInvariant (execute primitives) (Invariant primitives)
    (fun _ statement history => IsCollisionFree primitives statement history.store)
    (fun _ statement history => Requires primitives statement history.store)
    fun hinvariant _ hrequires => hinvariant.record _ hrequires

variable {primitives : Primitives} {process : ℕ} {history later : PendingHistory}
variable {owner candidateId : String} {prior point : ℤ × String} {candidate : Candidate}

/-! ## What other calls leave -/

/-- No change of a standing ends it. -/
def Lasts (holds : Standing → Prop) : Prop :=
  ∀ before after, Change origin before after → before.Kept origin → holds before → holds after

theorem Lasts.rely {holds : Standing → Prop} (hlasts : Lasts holds)
    (hrely : (rules primitives).rely process history later)
    (hholds : holds history.store.standing) : holds later.store.standing :=
  Rules.stable_of_interferes (fun last => holds last.store.standing)
    (fun _ statement _ _ hinvariant _ hrequires hlast =>
      hlasts _ _ (change_execute statement hinvariant.sound hrequires) hinvariant.sound.kept hlast)
    hrely hholds

theorem Lasts.record {holds : Standing → Prop} (hlasts : Lasts holds) {statement : Statement}
    (process : ℕ) (hinvariant : Invariant primitives history)
    (hrequires : Requires primitives statement history.store)
    (hholds : holds history.store.standing) :
    holds (history.record (execute primitives) process statement).store.standing :=
  hlasts _ _ (change_execute statement hinvariant.sound hrequires) hinvariant.sound.kept hholds

/-- A candidate is staged, with some status. -/
def IsStaged (candidateId owner : String) (prior point : ℤ × String) (standing : Standing) : Prop :=
  ∃ status, standing.staged candidateId = some ⟨owner, prior, point, status⟩

/-- The anchor has left a point behind. -/
def IsBeyond (owner : String) (point : ℤ × String) (standing : Standing) : Prop :=
  ∃ found, standing.authority owner = some found ∧ point.1 < found.1

theorem lasts_true : Lasts fun _ => True := fun _ _ _ _ _ => trivial

theorem lasts_isStaged : Lasts (IsStaged candidateId owner prior point) := by
  rintro before after hchange - ⟨status, hstaged⟩
  exact hchange.staged hstaged

theorem lasts_hasPassed : Lasts fun standing => standing.HasPassed owner point :=
  fun _ _ hchange hkept hpassed => hpassed.move (hchange.movesOn hkept owner)

theorem lasts_missed : Lasts fun standing => standing.Missed owner point :=
  fun _ _ hchange hkept hmissed => hmissed.move (hchange.movesOn hkept owner)

theorem lasts_isBeyond : Lasts (IsBeyond owner point) := by
  rintro before after hchange hkept ⟨found, hfound, hbeyond⟩
  obtain ⟨at', hat, hmoved⟩ := hchange.movesOn hkept owner found hfound
  refine ⟨at', hat, ?_⟩
  rcases hmoved with rfl | hmoved
  · exact hbeyond
  · exact hbeyond.trans hmoved

theorem lasts_accepted : Lasts fun standing => point ∈ standing.accepted owner :=
  fun _ _ hchange _ haccepted => hchange.accepted_subset owner haccepted

theorem Lasts.and {left right : Standing → Prop} (hleft : Lasts left) (hright : Lasts right) :
    Lasts fun standing => left standing ∧ right standing :=
  fun _ _ hchange hkept hholds =>
    ⟨hleft _ _ hchange hkept hholds.1, hright _ _ hchange hkept hholds.2⟩

theorem candidate?_of_isStaged {world : World}
    (hstaged : IsStaged candidateId owner prior point world.standing) :
    ∃ candidate, world.candidate? candidateId = some candidate ∧
      candidate.row.providerId = owner ∧ candidate.prior = prior ∧ candidate.point = point := by
  obtain ⟨status, hstaged⟩ := hstaged
  obtain ⟨candidate, hcandidate, hproposal⟩ := candidate?_of_staged hstaged
  simp only [Candidate.proposal, StagedAdvance.Candidate.mk.injEq] at hproposal
  exact ⟨candidate, hcandidate, hproposal.1, hproposal.2.1, hproposal.2.2.1⟩

theorem isStaged_of_candidate? {world : World}
    (hcandidate : world.candidate? candidateId = some candidate) :
    IsStaged candidateId candidate.row.providerId candidate.prior candidate.point
      world.standing :=
  ⟨_, staged_standing hcandidate⟩

/-! ## The exchanges with the anchor store -/

variable {Value : Type} {returns : Value → Standing → Prop} {program : Action Value}
variable {holds : Standing → Prop} {trusted : String → Option AttestorRegistry.Bytes}

/-- Nothing is promised about how a call fails. -/
abbrev Promises {Value : Type} (primitives : Primitives) (process : ℕ)
    (returns : Value → Standing → Prop) (program : Action Value) (history : PendingHistory) :
    Prop :=
  (rules primitives).Safe process (fun value last => returns value last.store.standing)
    (fun _ _ => True) program history

theorem promises_fail {error : Raised} : Promises primitives process returns (.fail error) history :=
  fun _ _ _ => trivial

theorem promises_done {value : Value} (hlasts : Lasts (returns value)) (hreturns : returns value history.store.standing) :
    Promises primitives process returns (.done value) history :=
  fun _ hrely _ => hlasts.rely hrely hreturns

/-- A statement, and what follows it. -/
theorem promises_send {statement : Statement} {rest : statement.Reply → Action Value} (holds : Standing → Prop) (hlasts : Lasts holds)
    (hholds : holds history.store.standing)
    (hnext : ∀ last, Invariant primitives last → holds last.store.standing →
      IsCollisionFree primitives statement last.store →
        Requires primitives statement last.store ∧
          Promises primitives process returns (rest (execute primitives statement last.store).1)
            (last.record (execute primitives) process statement)) :
    Promises primitives process returns ((send statement).bind rest) history :=
  Rules.Safe.call fun last hrely hinvariant hpermits =>
    hnext last hinvariant (hlasts.rely hrely hholds) hpermits

/-- A statement that a call may execute at any time. -/
theorem promises_ask {statement : Statement} {rest : statement.Reply → Action Value}
    (hlasts : Lasts holds)
    (hholds : holds history.store.standing)
    (hrequires : ∀ world, Requires primitives statement world)
    (hnext : ∀ answer last, Invariant primitives last → holds last.store.standing →
      Promises primitives process returns (rest answer) last) :
    Promises primitives process returns ((send statement).bind rest) history :=
  promises_send holds hlasts hholds fun last hinvariant hlast _ =>
    ⟨hrequires _, hnext _ _ (hinvariant.record process (hrequires _))
      (hlasts.record process hinvariant (hrequires _) hlast)⟩

theorem promises_localState {rest : ℤ × String → Action Value} (hlasts : Lasts holds)
    (hholds : holds history.store.standing)
    (hnext : ∀ found last, Invariant primitives last → holds last.store.standing →
      Promises primitives process returns (rest found) last) :
    Promises primitives process returns
      ((attempt (send (.anchored (.localState owner)))).bind rest) history := by
  refine promises_ask hlasts hholds (fun _ => trivial) fun answer last hinvariant hlast => ?_
  cases answer with
  | error error => exact promises_fail
  | ok found => exact hnext found last hinvariant hlast

theorem promises_raiseIf {returns : PUnit → Standing → Prop} {condition : Prop}
    [Decidable condition] {error : Raised} (hlasts : Lasts (returns ⟨⟩))
    (hreturns : ¬condition → returns ⟨⟩ history.store.standing) :
    Promises primitives process returns (Program.raiseIf condition error) history := by
  rw [Program.raiseIf]
  split
  case isTrue => exact promises_fail
  case isFalse hfalse => exact promises_done hlasts (hreturns hfalse)

theorem promises_bind {A : Type} {middle : A → Standing → Prop} {first : Action A}
    {rest : A → Action Value} (hfirst : Promises primitives process middle first history)
    (hrest : ∀ value last, Invariant primitives last → middle value last.store.standing →
      Promises primitives process returns (rest value) last)
    (hinvariant : Invariant primitives history) :
    Promises primitives process returns (first.bind rest) history :=
  Rules.Safe.andThen hfirst hrest (fun _ _ _ _ => trivial) hinvariant

/-- What lasts is still known when a program returns. -/
theorem promises_keeping (hlasts : Lasts holds) (hholds : holds history.store.standing)
    (hprogram : Promises primitives process returns program history) :
    Promises primitives process (fun value standing => returns value standing ∧ holds standing)
      program history := by
  induction program generalizing history with
  | done value =>
      exact fun later hrely hinvariant =>
        ⟨hprogram later hrely hinvariant, hlasts.rely hrely hholds⟩
  | fail error => exact fun _ _ _ => trivial
  | step statement next ih =>
      intro later hrely hinvariant hpermits
      obtain ⟨hrequires, hnext⟩ := hprogram later hrely hinvariant hpermits
      exact ⟨hrequires,
        ih _ (hlasts.record process hinvariant hrequires (hlasts.rely hrely hholds)) hnext⟩

theorem promises_mapError {translate : Raised → Raised}
    (hprogram : Promises primitives process returns program history)
    (hinvariant : Invariant primitives history) :
    Promises primitives process returns (program.mapError translate) history :=
  Rules.Safe.mapError hprogram hinvariant

theorem getAnchor_eq_ok {delivery : Delivery} {anchors : Tools.ReplayAnchor.AnchorTable}
    {row : Tools.ReplayAnchor.AnchorRow}
    (hok : AnchoredAttestationReplay.getAnchor owner delivery anchors = .ok row) :
    anchors.lookup owner = some row := by
  simp only [AnchoredAttestationReplay.getAnchor] at hok
  split at hok
  case h_1 found hfound =>
    split at hok
    case isTrue =>
      obtain rfl := Except.ok.inj hok
      exact hfound
    case isFalse => cases hok
  case h_2 => cases hok

theorem validateAnchor_eq_ok {row : Tools.ReplayAnchor.AnchorRow}
    (hok : AnchoredAttestationReplay.validateAnchor owner row = .ok point) :
    point = (row.sequence, row.headSha256) := by
  obtain ⟨-, hrest⟩ := raiseUnless_bind_eq_ok hok
  obtain ⟨-, hrest⟩ := raiseUnless_bind_eq_ok hrest
  obtain ⟨-, hrest⟩ := raiseUnless_bind_eq_ok hrest
  obtain ⟨-, hrest⟩ := raiseUnless_bind_eq_ok hrest
  exact (Except.ok.inj hrest).symm

/-- The anchor was read at a point, when something was known that still holds. -/
def WasRead (known : Standing → Prop) (owner : String) (found : ℤ × String)
    (standing : Standing) : Prop :=
  (standing.HasPassed owner found ∧ known standing) ∧
    ∃ read : Standing, known read ∧ read.authority owner = some found

theorem promises_readAnchor (known : Standing → Prop) (hlasts : Lasts known)
    (hknown : known history.store.standing) (delivery : Delivery) :
    Promises primitives process (WasRead known owner)
      (lift (AnchoredAttestationReplay.readAnchor owner delivery)) history := by
  apply promises_send known hlasts hknown
  intro last _ hlast _
  refine ⟨trivial, ?_⟩
  generalize hanswer : (execute primitives _ last.store).1 = answer
  cases answer with
  | error error => exact promises_fail
  | ok row =>
      change Promises primitives process _
        (lift (Program.ofExcept (AnchoredAttestationReplay.validateAnchor owner row))) _
      cases hvalid : AnchoredAttestationReplay.validateAnchor owner row with
      | error error => exact promises_fail
      | ok found =>
          have hat : last.store.standing.authority owner = some found := by
            rw [validateAnchor_eq_ok hvalid]
            exact congrArg (Option.map _) (getAnchor_eq_ok hanswer)
          refine promises_done ?_ ⟨⟨⟨found, hat, Or.inl rfl⟩, hlast⟩, last.store.standing, hlast, hat⟩
          exact (lasts_hasPassed.and hlasts).and fun _ _ _ _ hread => hread

/-- The anchor is required to be at the candidate. -/
theorem promises_requireAnchor (known : Standing → Prop) (hlasts : Lasts known)
    (hknown : known history.store.standing) (delivery : Delivery) (error : Raised)
    (hinvariant : Invariant primitives history) :
    Promises primitives process
      (fun _ standing =>
        standing.HasPassed candidate.row.providerId candidate.point ∧ known standing)
      (requireAnchor candidate delivery error) history := by
  refine promises_bind (promises_readAnchor known hlasts hknown delivery) ?_ hinvariant
  rintro observed last - ⟨hpassed, -⟩
  exact promises_raiseIf (lasts_hasPassed.and hlasts) fun hobserved =>
    not_not.mp hobserved ▸ hpassed

/-! ## Moving the anchor -/

/-- The candidate is staged. -/
abbrev Candidate.IsStaged (candidate : Candidate) : Standing → Prop :=
  PendingAnchoredReplay.IsStaged candidate.row.candidateId candidate.row.providerId candidate.prior
    candidate.point

theorem next_of_isStaged {world : World} (hsound : Sound primitives world)
    (hstaged : IsStaged candidateId owner prior point world.standing) : point.1 = prior.1 + 1 := by
  obtain ⟨status, hstaged⟩ := hstaged
  exact hsound.kept.next _ _ hstaged

theorem requires_compareAndSetAnchor {world : World} {delivery : Delivery}
    (hstaged : candidate.IsStaged world.standing) :
    Requires primitives (.anchored (.compareAndSetAnchor candidate.request delivery)) world := by
  obtain ⟨stored, hstored, howner, hprior, hpoint⟩ := candidate?_of_isStaged hstaged
  refine ⟨_, stored, hstored, ?_⟩
  rw [Candidate.request, Candidate.request, howner, hprior, hpoint]

theorem hasPassed_of_published {world : World} {delivery : Delivery}
    (hanswer : (execute primitives (.anchored (.compareAndSetAnchor candidate.request delivery))
      world).1 = .ok true) :
    (execute primitives (.anchored (.compareAndSetAnchor candidate.request delivery))
      world).2.standing.HasPassed candidate.row.providerId candidate.point := by
  obtain ⟨row, hrow, hsequence, hhead⟩ :=
    AnchoredAttestationReplay.lookup_of_compareAndSetAnchor_ok hanswer
  refine ⟨candidate.point, ?_, Or.inl rfl⟩
  exact (congrArg (Option.map _) hrow).trans (congrArg some (Prod.ext hsequence hhead))

theorem casAnswer_eq_ok_false {delivery : Delivery} {outcome : Tools.ReplayAnchor.CasOutcome}
    (hok : AnchoredAttestationReplay.casAnswer delivery outcome = .ok false) :
    outcome = .conflict := by
  cases delivery <;> cases outcome <;> first | rfl | cases hok

theorem lookup_of_conflict {request : Tools.ReplayAnchor.CasRequest} {delivery : Delivery}
    {anchors : Tools.ReplayAnchor.AnchorTable}
    (hok : (AnchoredAttestationReplay.compareAndSetAnchor request delivery anchors).1 =
      .ok false) :
    ∃ row, anchors.lookup request.provider = some row ∧
      (row.sequence, row.headSha256) ≠ (request.expectedSequence, request.expectedHead) := by
  simp only [AnchoredAttestationReplay.compareAndSetAnchor] at hok
  split_ifs at hok
  have houtcome := casAnswer_eq_ok_false hok
  rw [Tools.ReplayAnchor.compareAndSet, if_neg Bool.false_ne_true] at houtcome
  split at houtcome
  case isTrue => cases houtcome
  case isFalse =>
    rw [Tools.ReplayAnchor.casOutcome] at houtcome
    split at houtcome
    case h_1 => cases houtcome
    case h_2 row hrow =>
      refine ⟨row, hrow, fun hsame => ?_⟩
      obtain ⟨hsequence, hhead⟩ := Prod.mk.inj hsame
      split_ifs at houtcome with hvalid hdiffers
      exact hdiffers.elim (fun h => h hsequence) fun h => h hhead

/-- What was answered `False` has found the anchor somewhere else. -/
theorem isBeyond_of_conflict {world : World} {delivery : Delivery}
    (hanswer : (execute primitives (.anchored (.compareAndSetAnchor candidate.request delivery))
      world).1 = .ok false)
    (hpassed : world.standing.HasPassed candidate.row.providerId candidate.prior) :
    IsBeyond candidate.row.providerId candidate.prior world.standing := by
  obtain ⟨found, hfound, hat⟩ := hpassed
  refine ⟨found, hfound, hat.resolve_left ?_⟩
  rintro rfl
  obtain ⟨row, hrow, hpoint⟩ := Option.map_eq_some_iff.mp hfound
  obtain ⟨other, hother, hdiffers⟩ := lookup_of_conflict hanswer
  obtain rfl := Option.some.inj (hrow.symm.trans hother)
  exact hdiffers hpoint

/-- A staged candidate is quarantined where the anchor has missed it. -/
theorem promises_quarantine {returns : PUnit → Standing → Prop} (message : String)
    (hstaged : candidate.IsStaged history.store.standing)
    (hmissed : history.store.standing.Missed candidate.row.providerId candidate.point) :
    Promises primitives process returns (quarantine candidate.row.candidateId message) history := by
  refine promises_send _ (lasts_isStaged.and lasts_missed) ⟨hstaged, hmissed⟩
    fun last _ hlast _ => ⟨?_, promises_fail⟩
  obtain ⟨stored, hstored, howner, -, hpoint⟩ := candidate?_of_isStaged hlast.1
  refine ⟨stored, hstored, ?_⟩
  rw [howner, hpoint]
  exact hlast.2

/-- Where the anchor is when it has left the state before a candidate. -/
theorem missed_of_isBeyond {found : ℤ × String} {standing : Standing}
    (hnext : point.1 = prior.1 + 1) (hbeyond : prior.1 < found.1) (hne : found ≠ point)
    (hpassed : standing.HasPassed owner found) : standing.Missed owner point := by
  obtain ⟨later, hlater, hat⟩ := hpassed
  rcases hat with rfl | hat
  · exact ⟨later, hlater, hne, by omega⟩
  · refine ⟨later, hlater, ?_, by omega⟩
    rintro rfl
    omega

/-- What holds once the anchor has been moved to a staged candidate. -/
abbrev IsAnchored (candidateId owner : String) (prior point : ℤ × String) (standing : Standing) :
    Prop :=
  standing.HasPassed owner point ∧ IsStaged candidateId owner prior point standing

abbrev Candidate.IsAnchored (candidate : Candidate) : Standing → Prop :=
  PendingAnchoredReplay.IsAnchored candidate.row.candidateId candidate.row.providerId
    candidate.prior candidate.point

theorem lasts_isAnchored : Lasts (IsAnchored candidateId owner prior point) :=
  lasts_hasPassed.and lasts_isStaged

theorem promises_publish (deliveries : Deliveries)
    (hstaged : candidate.IsStaged history.store.standing)
    (hpassed : history.store.standing.HasPassed candidate.row.providerId candidate.prior) :
    Promises primitives process (fun _ => candidate.IsAnchored) (publish candidate deliveries)
      history := by
  refine promises_send _ (lasts_isStaged.and lasts_hasPassed) ⟨hstaged, hpassed⟩
    fun last hinvariant hlast _ => ?_
  have hrequires : Requires primitives (.anchored (.compareAndSetAnchor candidate.request
      deliveries.publishing)) last.store := requires_compareAndSetAnchor hlast.1
  refine ⟨hrequires, ?_⟩
  have hrecorded := hinvariant.record process hrequires
  have hkept := lasts_isStaged.record process hinvariant hrequires hlast.1
  generalize hanswer : (execute primitives _ last.store).1 = answer
  match answer with
  | .ok true => exact promises_done lasts_isAnchored ⟨hasPassed_of_published hanswer, hkept⟩
  | .error _ =>
      exact promises_mapError (promises_requireAnchor _ lasts_isStaged hkept _ _ hrecorded) hrecorded
  | .ok false =>
      have hbeyond := lasts_isBeyond.record process hinvariant hrequires
        (isBeyond_of_conflict hanswer hlast.2)
      refine promises_bind (promises_mapError (promises_readAnchor _
        (lasts_isStaged.and lasts_isBeyond) ⟨hkept, hbeyond⟩ _) hrecorded) ?_ hrecorded
      rintro observed next hnext ⟨⟨hobserved, hnow, -⟩, read, ⟨-, found, hfound, hpast⟩, hat⟩
      obtain rfl := Option.some.inj (hfound.symm.trans hat)
      split
      case isTrue hsame =>
        subst hsame
        exact promises_done lasts_isAnchored ⟨hobserved, hnow⟩
      case isFalse hother =>
        exact promises_quarantine _ hnow
          (missed_of_isBeyond (next_of_isStaged hnext.sound hnow) hpast hother hobserved)

/-- The anchor was at the state before the candidate when it was first read. -/
theorem promises_publishFrom {known : Standing → Prop} (deliveries : Deliveries)
    {current : ℤ × String} (hinvariant : Invariant primitives history)
    (hknown : ∀ standing, known standing → candidate.IsStaged standing ∧
      standing.HasPassed candidate.row.providerId candidate.prior)
    (hread : WasRead known candidate.row.providerId current history.store.standing) :
    Promises primitives process (fun _ => candidate.IsAnchored)
      (publishFrom candidate deliveries current) history := by
  obtain ⟨⟨hcurrent, hnow⟩, read, hthen, hat⟩ := hread
  obtain ⟨hstaged, hpassed⟩ := hknown _ hnow
  rw [publishFrom]
  split
  case isTrue hsame =>
    subst hsame
    exact promises_done lasts_isAnchored ⟨hcurrent, hstaged⟩
  case isFalse hother =>
    split
    case isTrue => exact promises_publish deliveries hstaged hpassed
    case isFalse hmoved =>
      obtain ⟨found, hfound, hpast⟩ := (hknown _ hthen).2
      obtain rfl := Option.some.inj (hfound.symm.trans hat)
      exact promises_quarantine _ hstaged (missed_of_isBeyond
        (next_of_isStaged hinvariant.sound hstaged) (hpast.resolve_left hmoved) hother hcurrent)

theorem promises_republish (deliveries : Deliveries)
    (hstaged : candidate.IsStaged history.store.standing) :
    Promises primitives process (fun _ => candidate.IsAnchored) (republish candidate deliveries)
      history := by
  apply Rules.Safe.raiseIf (fun _ => promises_fail)
  intro _
  refine promises_send _ lasts_isStaged hstaged fun last hinvariant hlast _ => ?_
  have hrequires : Requires primitives (.anchored (.compareAndSetAnchor candidate.request
      deliveries.publishing)) last.store := requires_compareAndSetAnchor hlast
  refine ⟨hrequires, ?_⟩
  have hrecorded := hinvariant.record process hrequires
  have hkept := lasts_isStaged.record process hinvariant hrequires hlast
  generalize hanswer : (execute primitives _ last.store).1 = answer
  match answer with
  | .ok true => exact promises_done lasts_isAnchored ⟨hasPassed_of_published hanswer, hkept⟩
  | .error _ => exact promises_requireAnchor _ lasts_isStaged hkept _ _ hrecorded
  | .ok false => exact promises_requireAnchor _ lasts_isStaged hkept _ _ hrecorded

theorem promises_republishFrom (deliveries : Deliveries) {anchor : ℤ × String}
    (hread : WasRead candidate.IsStaged candidate.row.providerId anchor history.store.standing) :
    Promises primitives process (fun _ => candidate.IsAnchored)
      (republishFrom candidate deliveries anchor) history := by
  obtain ⟨⟨hpassed, hstaged⟩, -⟩ := hread
  rw [republishFrom]
  split
  case isTrue => exact promises_republish deliveries hstaged
  case isFalse =>
    exact promises_raiseIf lasts_isAnchored fun hsame =>
      ⟨not_not.mp hsame ▸ hpassed, hstaged⟩

/-! ## Finalization -/

/-- What the signed evidence of a candidate was verified to be. -/
theorem reverify_eq_ok {documents : Document × Document}
    (hok : reverify primitives trusted candidate = .ok documents) :
    ∃ verified, verifyIndependentRunnerAttestation primitives.attestations documents.1.val
        documents.2.val trusted = .ok verified ∧
      verified.dossier.providerId = candidate.row.providerId := by
  obtain ⟨dossier, -, hrest⟩ := orRaise_bind_eq_ok hok
  obtain ⟨envelope, -, hrest⟩ := orRaise_bind_eq_ok hrest
  obtain ⟨verified, hverified, hrest⟩ := orRaise_bind_eq_ok hrest
  obtain ⟨⟨hprovider, -⟩, hrest⟩ := raiseUnless_bind_eq_ok hrest
  obtain ⟨-, hrest⟩ := raiseUnless_bind_eq_ok hrest
  obtain rfl := Except.ok.inj hrest
  exact ⟨verified, eq_ok_of_toOption hverified, hprovider⟩

/-- The point of a finalization has been accepted. -/
def IsAccepted (owner : String) (point : ℤ × String) (finalized : Finalized)
    (standing : Standing) : Prop :=
  finalized.point = point ∧ point ∈ standing.accepted owner

theorem lasts_isAccepted {finalized : Finalized} : Lasts (IsAccepted owner point finalized) :=
  fun _ _ hchange _ haccepted => ⟨haccepted.1, hchange.accepted_subset owner haccepted.2⟩

theorem promises_finalizeAccepted :
    Promises primitives process (IsAccepted candidate.row.providerId candidate.point)
      (finalizeAccepted trusted candidate) history := by
  refine promises_ask lasts_true trivial (fun _ => trivial) fun answer last _ _ => ?_
  cases answer with
  | error error => exact promises_fail
  | ok plan =>
      refine promises_send _ lasts_true trivial fun next hinvariant _ _ => ⟨trivial, ?_⟩
      generalize hanswer : (execute primitives _ next.store).1 = answer
      cases answer with
      | error error => exact promises_fail
      | ok value =>
          refine promises_done lasts_isAccepted ⟨rfl, ?_⟩
          change (finalizeStored candidate.row next.store).1 = .ok value at hanswer
          refine lasts_accepted.record process hinvariant trivial ?_
          rcases finalizeStored_cases candidate.row next.store with
            ⟨error, hraised⟩ | ⟨⟨evidence, hmem, hpoint⟩, -⟩
          · rw [hraised] at hanswer
            cases hanswer
          · change candidate.point ∈ pointsOf _
            rw [Candidate.point, ← hpoint]
            exact mem_pointsOf_of_evidence (hinvariant.sound.ledgers _) hmem

theorem mem_accepted_of_record {world : World} {call : ReplayRegistry.RecordCall} {recorded : Recorded}
    (hrequires : Requires primitives (.anchored (.record call)) world)
    (hok : (execute primitives (.anchored (.record call)) world).1 = .ok recorded)
    (hfinalize : call.finalizePendingCandidateId = some candidateId)
    (hstaged : IsStaged candidateId owner prior point world.standing) :
    (recorded.sequence, recorded.head) ∈
      (execute primitives (.anchored (.record call)) world).2.standing.accepted owner := by
  obtain ⟨other, candidate, hcandidate, hother, hpoint, -, -, ⟨entry, -, hledgers⟩, hlast, -⟩ := record_eq_ok hrequires hok
  obtain rfl := Option.some.inj (hfinalize.symm.trans hother)
  obtain ⟨stored, hstored, rfl, -, -⟩ := candidate?_of_isStaged hstaged
  obtain rfl := Option.some.inj (hcandidate.symm.trans hstored)
  have hself := hledgers candidate.row.providerId
  rw [if_pos rfl] at hself
  rw [hself] at hlast
  change _ ∈ pointsOf ((execute primitives _ world).2.registry.ledgerOf candidate.row.providerId)
  rw [hself, pointsOf_record, hlast, hpoint]
  exact Or.inl rfl

/-- A finalization of a candidate that the anchor has come to. -/
theorem promises_finalizeWith {again : Action Finalized}
    (hagain : ∀ last, Invariant primitives last →
      IsAnchored candidateId owner prior point last.store.standing →
        Promises primitives process (IsAccepted owner point) again last)
    (hanchored : IsAnchored candidateId owner prior point history.store.standing) :
    Promises primitives process (IsAccepted owner point)
      (finalizeWith primitives trusted candidateId again) history := by
  refine promises_send _ lasts_isAnchored hanchored fun last hinvariant hlast _ => ⟨trivial, ?_⟩
  obtain ⟨candidate, hcandidate, rfl, rfl, rfl⟩ := candidate?_of_isStaged hlast.2
  generalize hselected : (execute primitives (.selectCandidate candidateId) last.store).1 = selected
  obtain rfl : selected = some candidate := hselected.symm.trans hcandidate
  apply Rules.Safe.raiseIf (fun _ => promises_fail)
  intro _
  apply Rules.Safe.ofExcept (fun _ _ => promises_fail)
  intro documents hdocuments
  refine promises_localState lasts_isAnchored (lasts_isAnchored.record process hinvariant trivial hlast)
    fun found next _ hnext => ?_
  split
  case isTrue => exact promises_finalizeAccepted
  case isFalse =>
    apply Rules.Safe.raiseIf (fun _ => promises_fail)
    intro _
    refine promises_send _ lasts_isAnchored hnext fun third hinvariant hthird _ => ?_
    have hrequires : Requires primitives (.anchored (.record ⟨documents.1, documents.2, trusted,
        some candidate.prior, some candidateId⟩)) third.store := by
      obtain ⟨stored, hstored, howner, hprior, hpoint⟩ := candidate?_of_isStaged hthird.2
      obtain ⟨verified, hverified, hprovider⟩ := reverify_eq_ok hdocuments
      refine ⟨candidateId, stored, hstored, congrArg some hprior.symm, rfl, ?_, ?_⟩
      · rw [howner, hpoint]
        exact hthird.1
      · rintro other hother
        obtain rfl := Except.ok.inj (hverified.symm.trans hother)
        exact hprovider.trans howner.symm
    refine ⟨hrequires, ?_⟩
    generalize hanswer : (execute primitives _ third.store).1 = answer
    cases answer with
    | ok recorded =>
        apply Rules.Safe.raiseIf (fun _ => promises_fail)
        intro hsame
        refine promises_done lasts_isAccepted ⟨rfl, ?_⟩
        rw [← not_not.mp hsame]
        exact mem_accepted_of_record hrequires hanswer rfl hthird.2
    | error error =>
        refine promises_localState lasts_isAnchored
          (lasts_isAnchored.record process hinvariant hrequires hthird)
          fun current last hinvariant hlast => ?_
        split
        case isTrue => exact promises_fail
        case isFalse => exact hagain last hinvariant hlast

theorem promises_finalizePending (depth : ℕ)
    (hanchored : IsAnchored candidateId owner prior point history.store.standing) :
    Promises primitives process (IsAccepted owner point)
      (finalizePending primitives trusted candidateId depth) history := by
  induction depth generalizing history with
  | zero => exact promises_finalizeWith (fun _ _ _ => promises_fail) hanchored
  | succ depth ih => exact promises_finalizeWith (fun _ _ hanchored => ih hanchored) hanchored

/-! ## The calls -/

/-- A candidate that was persisted is staged, under the event that it stands for. -/
theorem isStaged_of_persisted {world : World} {value : Unit} (hsound : Sound primitives world)
    (hrequires : Requires primitives (.persistPending candidate) world)
    (hcollisions : IsCollisionFree primitives (.persistPending candidate) world)
    (hanswer : (persistPending candidate world).1 = .ok value) :
    candidate.IsStaged (persistPending candidate world).2.standing := by
  rcases persistPending_cases candidate world with
    ⟨error, hraised⟩ | ⟨-, ⟨existing, hexisting, hhead, hfound⟩ | ⟨after, hstages, hstored⟩⟩
  · rw [hraised] at hanswer
    cases hanswer
  · rw [hfound, standing_ensurePending]
    obtain ⟨columns, hcolumns⟩ :=
      Option.isSome_iff_exists.mp (hsound.columned _ existing hexisting)
    have hstored : world.candidate? candidate.row.candidateId = some ⟨existing, columns⟩ :=
      candidate?_eq_some_iff.mpr ⟨hexisting, hcolumns⟩
    have hhashes := (hsound.hashed _ _ hstored).symm.trans (hhead.trans hrequires.2.2)
    have hevent := hcollisions candidate rfl _ _ hstored hhashes
    simp only [Candidate.event, ReplayEvent.mk.injEq] at hevent
    have hstaged := isStaged_of_candidate? hstored
    have hnext := next_of_isStaged hsound hstaged
    have hpoint : Candidate.point ⟨existing, columns⟩ = candidate.point :=
      Prod.ext hevent.2.1 hhead
    have hprior : Candidate.prior ⟨existing, columns⟩ = candidate.prior := by
      refine Prod.ext ?_ hevent.2.2.1
      have hsequence := hrequires.2.1
      rw [hpoint] at hnext
      omega
    have howner : (Candidate.row ⟨existing, columns⟩).providerId = candidate.row.providerId :=
      hevent.1
    rw [hpoint, hprior, howner] at hstaged
    exact hstaged
  · rw [hstored]
    have hcandidate := hstages.candidate? candidate.row.candidateId
    rw [if_pos rfl] at hcandidate
    exact isStaged_of_candidate? hcandidate

theorem promises_anchorAndFinalize {call : PendingCall} (hinvariant : Invariant primitives history)
    (hstaged : candidate.IsStaged history.store.standing)
    (hpassed : history.store.standing.HasPassed candidate.row.providerId candidate.prior) :
    Promises primitives process (IsAccepted candidate.row.providerId candidate.point)
      (anchorAndFinalize primitives call candidate) history := by
  apply promises_bind (promises_readAnchor _ (lasts_isStaged.and lasts_hasPassed)
    ⟨hstaged, hpassed⟩ _) _ hinvariant
  intro current first hfirst hread
  apply promises_bind (promises_publishFrom _ hfirst (fun _ hknown => hknown) hread) _ hfirst
  intro _ second hsecond hanchored
  apply promises_bind (promises_requireAnchor _ lasts_isStaged hanchored.2 _ _ hsecond) _ hsecond
  intro _ third _ hconfirmed
  exact promises_finalizePending _ hconfirmed

/-- The event of an attestation that was registered is in the journal. -/
def IsRegistered (primitives : Primitives) (call : PendingCall) (finalized : Finalized)
    (standing : Standing) : Prop :=
  ∃ verified prior, verifyIndependentRunnerAttestation primitives.attestations call.dossier.val
      call.envelope.val call.trustedPublicKeys = .ok verified ∧
    IsAccepted verified.dossier.providerId
      (prior.1 + 1, primitives.eventHash (candidateEvent verified prior)) finalized standing

theorem lasts_isRegistered {call : PendingCall} {finalized : Finalized} :
    Lasts (IsRegistered primitives call finalized) := by
  rintro before after hchange hkept ⟨verified, prior, hverified, haccepted⟩
  exact ⟨verified, prior, hverified, lasts_isAccepted before after hchange hkept haccepted⟩

theorem promises_weaken {middle : Value → Standing → Prop}
    (hprogram : Promises primitives process middle program history)
    (hweaker : ∀ value standing, middle value standing → returns value standing) :
    Promises primitives process returns program history :=
  Rules.Safe.weaken hprogram (fun value last _ => hweaker value last.store.standing)
    fun _ _ _ _ => trivial

theorem promises_register (call : PendingCall) (hinvariant : Invariant primitives history) :
    Promises primitives process (IsRegistered primitives call) (register primitives call)
      history := by
  apply Rules.Safe.ofExcept (fun _ _ => promises_fail)
  intro providerId hprovider
  apply Rules.Safe.ofExcept (fun _ _ => promises_fail)
  intro verified hanswer
  have hverified : verifyIndependentRunnerAttestation primitives.attestations call.dossier.val
      call.envelope.val call.trustedPublicKeys = .ok verified := by
    split at hanswer
    case h_1 found hfound =>
      obtain rfl := Except.ok.inj hanswer
      exact hfound
    case h_2 => cases hanswer
  have howner : verified.dossier.providerId = providerId :=
    AnchoredAttestationReplay.provider_of_verified (raiseUnless_bind_eq_ok hprovider).2 hverified
  subst howner
  apply promises_bind (promises_readAnchor _ lasts_true trivial _) _ hinvariant
  rintro prior first hfirst ⟨⟨hpassed, -⟩, -⟩
  refine promises_localState lasts_hasPassed hpassed fun found second _ hpassed => ?_
  apply Rules.Safe.raiseIf (fun _ => promises_fail)
  intro _
  apply Rules.Safe.ofExcept (fun _ _ => promises_fail)
  intro dossierJson _
  apply Rules.Safe.ofExcept (fun _ _ => promises_fail)
  intro envelopeJson _
  generalize hcandidate : candidateOf primitives call verified prior dossierJson envelopeJson =
    candidate
  refine promises_send _ lasts_hasPassed hpassed fun third hthird hpassed hcollisions => ?_
  have hrequires : Requires primitives (.persistPending candidate) third.store := by
    subst hcandidate
    exact ⟨rfl, rfl, rfl⟩
  refine ⟨hrequires, ?_⟩
  generalize hpersisted : (execute primitives _ third.store).1 = answer
  cases answer with
  | error error => exact promises_fail
  | ok value =>
      have hstaged := isStaged_of_persisted hthird.sound hrequires hcollisions hpersisted
      have hstill := lasts_hasPassed.record process hthird hrequires hpassed
      subst hcandidate
      refine promises_weaken (promises_anchorAndFinalize (hthird.record process hrequires) hstaged
        hstill) ?_
      exact fun finalized standing haccepted => ⟨verified, prior, hverified, haccepted⟩

/-- The candidate that a recovery names is in the journal. -/
def IsRecovered (candidateId : String) (finalized : Finalized) (standing : Standing) : Prop :=
  ∃ owner prior, IsStaged candidateId owner prior finalized.point standing ∧
    finalized.point ∈ standing.accepted owner

theorem lasts_isRecovered {finalized : Finalized} : Lasts (IsRecovered candidateId finalized) := by
  rintro before after hchange hkept ⟨owner, prior, hstaged, haccepted⟩
  exact ⟨owner, prior, lasts_isStaged before after hchange hkept hstaged,
    hchange.accepted_subset owner haccepted⟩

theorem promises_recovered {depth : ℕ}
    (hanchored : IsAnchored candidateId owner prior point history.store.standing) :
    Promises primitives process (IsRecovered candidateId)
      (finalizePending primitives trusted candidateId depth) history := by
  refine promises_weaken (promises_keeping lasts_isStaged hanchored.2
    (promises_finalizePending depth hanchored)) ?_
  rintro finalized standing ⟨⟨rfl, haccepted⟩, hstill⟩
  exact ⟨owner, prior, hstill, haccepted⟩

theorem promises_recover (call : RecoverCall) :
    Promises primitives process (IsRecovered call.candidateId) (recover primitives call)
      history := by
  refine promises_ask lasts_true trivial (fun _ => trivial) fun _ first _ _ => ?_
  refine promises_send _ lasts_true trivial fun second hsecond _ _ => ⟨trivial, ?_⟩
  generalize hcandidate : (execute primitives (.selectCandidate call.candidateId) second.store).1 =
    selected
  cases selected with
  | none => exact promises_fail
  | some candidate =>
      have hselects : Requires primitives (.selectCandidate call.candidateId) second.store := trivial
      have hid := candidateId_of_row? (candidate?_eq_some_iff.mp hcandidate).1
      have hstaged : candidate.IsStaged
          (second.record (execute primitives) process (.selectCandidate call.candidateId)
            ).store.standing := by
        rw [Candidate.IsStaged, hid]
        exact lasts_isStaged.record process hsecond hselects (isStaged_of_candidate? hcandidate)
      have hrecorded := hsecond.record process hselects
      apply Rules.Safe.raiseIf (fun _ => promises_fail)
      intro _
      apply Rules.Safe.ofExcept (fun _ _ => promises_fail)
      intro _ _
      apply promises_bind (promises_readAnchor candidate.IsStaged lasts_isStaged hstaged _) _
        hrecorded
      intro anchor third hthird hread
      apply promises_bind (promises_republishFrom _ hread) _ hthird
      intro _ fourth hfourth hanchored
      apply promises_bind (promises_requireAnchor _ lasts_isStaged hanchored.2 _ _ hfourth) _
        hfourth
      intro _ fifth _ hconfirmed
      obtain ⟨hpassed, hstill⟩ := hconfirmed
      rw [hid] at hstill
      exact promises_recovered ⟨hpassed, hstill⟩

end AegisForge.Shared.PendingAnchoredReplay
