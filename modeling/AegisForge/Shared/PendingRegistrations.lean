import AegisForge.Core.Base64
import AegisForge.Shared.JournalBinding
import AegisForge.Shared.PendingAnchorSafety

/-!
# Any number of registrations and recoveries

The anchor of a provider is the end of its journal, or one staged candidate ahead of
it, in every interleaving of provisions, registrations and recoveries, of which any
may stop anywhere and any exchange with the anchor store may be lost.
-/

namespace AegisForge.Shared.PendingAnchoredReplay

open AegisForge.Core AegisForge.Concurrency
open ReplayRegistry (PendingStatus ReplayEvent genesis)

/-- What a call that returned promises. -/
def Returns (primitives : Primitives) : Call → Answer → Standing → Prop
  | .register call, .finalized finalized, standing =>
      IsRegistered primitives call finalized standing
  | .recover call, .finalized finalized, standing =>
      IsRecovered call.candidateId finalized standing
  | _, _, _ => True

abbrev PendingPool : Type := Pool Call Statement.Reply World Raised Answer

/-- Every interleaving in which no event that is staged has the hash of another. -/
def collisionFree (primitives : Primitives) : Schedule Call Statement.Reply World Raised Answer where
  starts := fun _ _ => True
  permits := fun _ statement history => IsCollisionFree primitives statement history.store

def PendingPool.Reachable (primitives : Primitives) (pool : PendingPool) : Prop :=
  Pool.Reaches (execute primitives) (Call.body primitives) (collisionFree primitives)
    (Pool.idle World.empty) pool

section Reachable

variable {primitives : Primitives} {process : ℕ} {history : PendingHistory} {pool : PendingPool}

theorem sound_empty : Sound primitives World.empty where
  ledgers := fun _ => ReplayRegistry.Ledger.Consistent.empty
  columned := fun _ _ hrow => by cases hrow
  hashed := fun _ _ hcandidate => by cases hcandidate
  kept := {
    aligned := fun _ => rfl
    ordered := fun _ _ hpoint => by
      obtain ⟨row, hrow, -⟩ := hpoint
      cases hrow
    ended := fun _ => Or.inl rfl
    next := fun _ _ hstaged => by cases hstaged
    reached := fun _ _ hstaged => by cases hstaged
    finalized := fun _ _ hstaged => by cases hstaged
    conflicting := fun _ _ hstaged => by cases hstaged
    passed := fun _ _ hpoint => by
      obtain ⟨row, hrow, -⟩ := hpoint
      cases hrow
    covered := fun _ _ hpoint => by
      obtain ⟨row, hrow, -⟩ := hpoint
      cases hrow }

theorem invariant_idle : Invariant primitives ⟨World.empty, []⟩ :=
  ⟨sound_empty, fun _ hevent => absurd hevent List.not_mem_nil⟩

/-- Every call keeps the rules. -/
theorem promises_body (call : Call) (hinvariant : Invariant primitives history) :
    Promises primitives process (Returns primitives call) (call.body primitives) history := by
  cases call with
  | provision providerId faulty =>
      exact promises_send (fun _ => True) (fun _ _ _ _ _ => trivial) trivial
        fun _ _ _ _ => ⟨trivial, fun _ _ _ => trivial⟩
  | register call =>
      apply promises_bind (promises_register call hinvariant) _ hinvariant
      exact fun _ _ _ hregistered => promises_done lasts_isRegistered hregistered
  | recover call =>
      apply promises_bind (promises_recover call) _ hinvariant
      exact fun _ _ _ hrecovered => promises_done lasts_isRecovered hrecovered

theorem sound_of_reachable (hreachable : pool.Reachable primitives) :
    Rules.Sound (rules primitives)
      (fun _ call answer last => Returns primitives call answer last.store.standing)
      (fun _ _ _ _ => True) pool :=
  Rules.Sound.reaches (fun _ _ _ hpermits => hpermits)
    (fun _ call _ hinvariant _ => promises_body call hinvariant)
    (Rules.Sound.idle invariant_idle) hreachable

/-- What the pending protocol keeps, whatever the interleaving. -/
structure IsAnchorSafe (primitives : Primitives) (pool : PendingPool) : Prop where
  /-- The journal of a provider ends at its anchor, or at the state before it, and then
  a prepared candidate leads from the one to the other. -/
  aligned : ∀ providerId, pool.history.store.standing.Aligned origin providerId
  /-- Every anchor there ever was is an event of the journal, or it is the anchor now. -/
  accounted : ∀ event ∈ pool.history.trace, ∀ providerId point,
    event.found.standing.authority providerId = some point →
      pool.history.store.standing.Accounts origin providerId point
  /-- Nothing is in the journal that was not staged and anchored before. -/
  accepted : ∀ providerId, ∀ point ∈ pool.history.store.standing.accepted providerId,
    pool.history.store.standing.HasPassed providerId point ∧
      ∃ candidateId candidate, pool.history.store.candidate? candidateId = some candidate ∧
        candidate.row.providerId = providerId ∧ candidate.point = point ∧
        point.2 = primitives.eventHash candidate.event ∧ candidate.row.status ≠ .prepared
  /-- The event of a call that returned is in the journal. -/
  returned : ∀ (index : ℕ) (call : Call) (answer : Answer),
    pool.processes[index]? = some ⟨call, .done answer⟩ →
      Returns primitives call answer pool.history.store.standing

/-- Whatever the interleaving, and wherever calls stop or exchanges are lost: the anchor is
never more than one staged candidate ahead of the journal, and never behind it. -/
theorem isAnchorSafe_of_reachable (hreachable : pool.Reachable primitives) :
    IsAnchorSafe primitives pool := by
  have hsound := sound_of_reachable hreachable
  obtain ⟨hstore, haccounted⟩ := hsound.invariant
  refine ⟨hstore.kept.aligned, haccounted, fun providerId point hpoint => ?_,
    fun index call answer hprocess => hsound.of_done hprocess⟩
  refine ⟨hstore.kept.passed providerId point hpoint, ?_⟩
  obtain ⟨candidateId, proposal, hstaged, rfl, rfl, hstatus⟩ :=
    hstore.kept.covered providerId point hpoint
  obtain ⟨candidate, hcandidate, rfl⟩ := candidate?_of_staged hstaged
  refine ⟨candidateId, candidate, hcandidate, rfl, rfl, hstore.hashed _ _ hcandidate, ?_⟩
  intro hprepared
  exact hstatus (congrArg statusOf hprepared)

/-! ## A hash function without collisions -/

theorem reachable_of_injective (hinjective : Function.Injective primitives.eventHash)
    (hreaches : Pool.Reaches (execute primitives) (Call.body primitives) .unrestricted
      (Pool.idle World.empty) pool) : pool.Reachable primitives := by
  refine Relation.ReflTransGen.mono (fun before after hstep => ?_) _ _ hreaches
  cases hstep with
  | start call _ => exact Pool.Step.start call trivial
  | execute hprocess _ =>
      exact Pool.Step.execute hprocess fun _ _ _ _ _ hhashes => hinjective hhashes

end Reachable

namespace Sample

open ReplayRegistry.Sample (dossier envelope isCanonical_dossier isCanonical_envelope event
  eventHead)

/-- The head of the event, and for every other event a text of its own. -/
def eventHash (hashed : ReplayEvent) : String :=
  if hashed = event then eventHead else String.ofList ('x' :: (Base64.encode hashed.bytes).toList)

theorem eventHead_ne (text : List Char) : eventHead ≠ String.ofList ('x' :: text) := by
  intro hsame
  have hfirst := congrArg (fun text : String => text.toList.head?) hsame
  simp only [String.toList_ofList, List.head?_cons] at hfirst
  revert hfirst
  decide

theorem eventHash_injective : Function.Injective eventHash := by
  intro left right hsame
  rw [eventHash, eventHash] at hsame
  split_ifs at hsame with hleft hright hright
  · exact hleft.trans hright.symm
  · exact absurd hsame (eventHead_ne _)
  · exact absurd hsame.symm (eventHead_ne _)
  · have htexts := List.tail_eq_of_cons_eq (String.ofList_injective hsame)
    have hencoded := congrArg Base64.decode? (String.toList_injective htexts)
    rw [Base64.decode?_encode, Base64.decode?_encode] at hencoded
    exact ReplayEvent.bytes_injective (Option.some.inj hencoded)

def primitives : Primitives where
  toRecovery :=
    { ReplayRegistry.Sample.primitives with
      eventHash := eventHash
      planHash := fun _ => eventHead }
  candidateHash := fun _ _ _ => eventHead

def call : PendingCall where
  dossier := ⟨dossier, isCanonical_dossier⟩
  envelope := ⟨envelope, isCanonical_envelope⟩
  trustedPublicKeys := ReplayRegistry.Sample.call.trustedPublicKeys
  deliveries := ⟨.answered, .answered, .answered, .answered, .answered⟩
  depth := 0

/-- A registration that stops once the anchor has moved, and the recovery of its candidate. -/
def moves : List (Move Call) :=
  [.start (.provision "lab" false), .advance 0, .start (.register call)] ++
    List.replicate 5 (.advance 1) ++
    [.start (.recover ⟨eventHead, call.trustedPublicKeys, call.deliveries, 0⟩)] ++
    List.replicate 8 (.advance 2)

def pool : PendingPool :=
  Pool.run (execute primitives) (Call.body primitives) (Pool.idle World.empty) moves

theorem reachable_pool : pool.Reachable primitives :=
  reachable_of_injective eventHash_injective (Pool.reaches_run _ moves)

end Sample

theorem isAnchorSafe_sample : IsAnchorSafe Sample.primitives Sample.pool :=
  isAnchorSafe_of_reachable Sample.reachable_pool

end AegisForge.Shared.PendingAnchoredReplay
