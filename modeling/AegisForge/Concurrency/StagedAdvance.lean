import Mathlib.Data.Set.Insert
import Mathlib.Logic.Function.Basic

/-!
# Advancing an authority before its follower

An authority and a follower hold a point for each owner.  A candidate for the
next point is staged, the authority moves to it, and only then does the follower
accept it.  Between any two of these changes the follower is level with the
authority, or a staged candidate leads from the one to the other.
-/

namespace AegisForge.Concurrency.StagedAdvance

universe u v w

variable {Owner : Type u} {Id : Type v} {Head : Type w}

inductive Status
  | prepared
  | conflict
  | finalized
  deriving DecidableEq, Repr

/-- A proposal to lead an owner from one point to the next. -/
structure Candidate (Owner : Type u) (Head : Type w) where
  owner : Owner
  prior : ℤ × Head
  point : ℤ × Head
  status : Status

def Candidate.withStatus (candidate : Candidate Owner Head) (status : Status) :
    Candidate Owner Head :=
  { candidate with status := status }

/-- Where the authority and the follower stand. -/
@[ext]
structure Standing (Owner : Type u) (Id : Type v) (Head : Type w) where
  authority : Owner → Option (ℤ × Head)
  /-- The last point that the follower accepted. -/
  last : Owner → ℤ × Head
  accepted : Owner → Set (ℤ × Head)
  staged : Id → Option (Candidate Owner Head)

namespace Standing

/-- The authority has come to a point, and may have left it again. -/
def HasPassed (standing : Standing Owner Id Head) (owner : Owner) (point : ℤ × Head) : Prop :=
  ∃ found, standing.authority owner = some found ∧ (found = point ∨ point.1 < found.1)

/-- The authority is as far as a point without standing at it. -/
def Missed (standing : Standing Owner Id Head) (owner : Owner) (point : ℤ × Head) : Prop :=
  ∃ found, standing.authority owner = some found ∧ found ≠ point ∧ point.1 ≤ found.1

/-- A point of an owner is accounted for: it is the origin or was accepted, or the
authority stands at it. -/
def Accounts (standing : Standing Owner Id Head) (origin : ℤ × Head) (owner : Owner)
    (point : ℤ × Head) : Prop :=
  (point = origin ∨ point ∈ standing.accepted owner) ∨ standing.authority owner = some point

/-- A point of an owner is that of a candidate that is no longer prepared. -/
def Covered (standing : Standing Owner Id Head) (owner : Owner) (point : ℤ × Head) : Prop :=
  ∃ id candidate, standing.staged id = some candidate ∧ candidate.owner = owner ∧
    candidate.point = point ∧ candidate.status ≠ .prepared

/-- The follower is level with the authority, or one staged candidate behind it. -/
def Aligned (standing : Standing Owner Id Head) (origin : ℤ × Head) (owner : Owner) : Prop :=
  match standing.authority owner with
  | none => standing.last owner = origin
  | some found =>
      found = standing.last owner ∨
        ∃ id candidate, standing.staged id = some candidate ∧ candidate.owner = owner ∧
          candidate.status = .prepared ∧ candidate.prior = standing.last owner ∧
          candidate.point = found

variable [DecidableEq Owner] [DecidableEq Id]

def authorize (standing : Standing Owner Id Head) (owner : Owner) (point : ℤ × Head) :
    Standing Owner Id Head :=
  { standing with authority := Function.update standing.authority owner (some point) }

def stage (standing : Standing Owner Id Head) (id : Id) (candidate : Candidate Owner Head) :
    Standing Owner Id Head :=
  { standing with staged := Function.update standing.staged id (some candidate) }

def accept (standing : Standing Owner Id Head) (owner : Owner) (point : ℤ × Head) :
    Standing Owner Id Head :=
  { standing with
    last := Function.update standing.last owner point
    accepted := Function.update standing.accepted owner
      (insert point (standing.accepted owner)) }

end Standing

section Changes

variable [DecidableEq Owner] [DecidableEq Id]

/-- What may happen to a standing, with the condition under which it does. -/
inductive Change (origin : ℤ × Head) (before : Standing Owner Id Head) :
    Standing Owner Id Head → Prop
  | same : Change origin before before
  | provision {owner : Owner} (hmissing : before.authority owner = none) :
      Change origin before (before.authorize owner origin)
  | stage {id : Id} {candidate : Candidate Owner Head} (hfresh : before.staged id = none)
      (hprior : candidate.prior = before.last candidate.owner)
      (hnext : candidate.point.1 = candidate.prior.1 + 1)
      (hstatus : candidate.status = .prepared) :
      Change origin before (before.stage id candidate)
  | publish {id : Id} {candidate : Candidate Owner Head}
      (hstaged : before.staged id = some candidate)
      (hprior : before.authority candidate.owner = some candidate.prior) :
      Change origin before (before.authorize candidate.owner candidate.point)
  | quarantine {id : Id} {candidate : Candidate Owner Head}
      (hstaged : before.staged id = some candidate)
      (hmissed : before.Missed candidate.owner candidate.point) :
      Change origin before (before.stage id (candidate.withStatus .conflict))
  | confirm {id : Id} {candidate : Candidate Owner Head}
      (hstaged : before.staged id = some candidate)
      (haccepted : candidate.point ∈ before.accepted candidate.owner) :
      Change origin before (before.stage id (candidate.withStatus .finalized))
  | accept {id : Id} {candidate : Candidate Owner Head}
      (hstaged : before.staged id = some candidate)
      (hprior : candidate.prior = before.last candidate.owner)
      (hpassed : before.HasPassed candidate.owner candidate.point) :
      Change origin before
        ((before.accept candidate.owner candidate.point).stage id
          (candidate.withStatus .finalized))

end Changes

/-- What every change keeps. -/
@[ext]
structure Standing.Kept (standing : Standing Owner Id Head) (origin : ℤ × Head) : Prop where
  aligned : ∀ owner, standing.Aligned origin owner
  /-- What was accepted is numbered up to the last point, which is among it. -/
  ordered : ∀ owner, ∀ point ∈ standing.accepted owner, point.1 ≤ (standing.last owner).1
  ended : ∀ owner, standing.last owner = origin ∨
    standing.last owner ∈ standing.accepted owner
  next : ∀ id candidate, standing.staged id = some candidate →
    candidate.point.1 = candidate.prior.1 + 1
  reached : ∀ id candidate, standing.staged id = some candidate →
    candidate.prior.1 ≤ (standing.last candidate.owner).1
  finalized : ∀ id candidate, standing.staged id = some candidate →
    candidate.status = .finalized → candidate.point ∈ standing.accepted candidate.owner
  conflicting : ∀ id candidate, standing.staged id = some candidate →
    candidate.status = .conflict → standing.Missed candidate.owner candidate.point
  /-- Nothing is accepted before the authority has come to it. -/
  passed : ∀ owner, ∀ point ∈ standing.accepted owner, standing.HasPassed owner point
  /-- Nothing is accepted but a candidate, which is then no longer prepared. -/
  covered : ∀ owner, ∀ point ∈ standing.accepted owner, standing.Covered owner point

namespace Standing

variable {standing after : Standing Owner Id Head} {origin point : ℤ × Head} {owner : Owner}
variable {id : Id} {candidate : Candidate Owner Head}

/-! ## What the authority says -/

/-- How the authority of an owner may move. -/
def MovesOn (before after : Option (ℤ × Head)) : Prop :=
  ∀ found, before = some found → ∃ later, after = some later ∧ (later = found ∨ found.1 < later.1)

theorem movesOn_refl (found : Option (ℤ × Head)) : MovesOn found found :=
  fun point hfound => ⟨point, hfound, Or.inl rfl⟩

theorem HasPassed.move (hpassed : standing.HasPassed owner point)
    (hmoves : MovesOn (standing.authority owner) (after.authority owner)) :
    after.HasPassed owner point := by
  obtain ⟨found, hfound, hat⟩ := hpassed
  obtain ⟨later, hlater, hmoved⟩ := hmoves found hfound
  refine ⟨later, hlater, ?_⟩
  rcases hmoved with rfl | hmoved
  · exact hat
  · rcases hat with rfl | hat
    · exact Or.inr hmoved
    · exact Or.inr (hat.trans hmoved)

theorem Missed.move (hmissed : standing.Missed owner point)
    (hmoves : MovesOn (standing.authority owner) (after.authority owner)) :
    after.Missed owner point := by
  obtain ⟨found, hfound, hne, hfar⟩ := hmissed
  obtain ⟨later, hlater, hmoved⟩ := hmoves found hfound
  rcases hmoved with rfl | hmoved
  · exact ⟨later, hlater, hne, hfar⟩
  · refine ⟨later, hlater, ?_, hfar.trans hmoved.le⟩
    rintro rfl
    exact absurd hmoved (not_lt.mpr hfar)

/-- Before the authority moves to a candidate, the follower is level with it. -/
theorem Kept.last_of_publish (hkept : standing.Kept origin)
    (hstaged : standing.staged id = some candidate)
    (hprior : standing.authority candidate.owner = some candidate.prior) :
    candidate.prior = standing.last candidate.owner := by
  have haligned := hkept.aligned candidate.owner
  rw [Aligned, hprior] at haligned
  rcases haligned with hlevel | ⟨other, leading, hleading, howner, -, hahead, hpoint⟩
  · exact hlevel
  · -- The authority would be ahead of the follower, and so of the candidate.
    have hnext := hkept.next other leading hleading
    have hreached := hkept.reached id candidate hstaged
    rw [hahead, hpoint] at hnext
    omega

theorem Kept.status_of_publish (hkept : standing.Kept origin)
    (hstaged : standing.staged id = some candidate)
    (hprior : standing.authority candidate.owner = some candidate.prior) :
    candidate.status = .prepared := by
  have hlast := hkept.last_of_publish hstaged hprior
  have hnext := hkept.next id candidate hstaged
  cases hstatus : candidate.status with
  | prepared => rfl
  | conflict =>
      obtain ⟨found, hfound, -, hfar⟩ := hkept.conflicting id candidate hstaged hstatus
      obtain rfl := Option.some.inj (hfound.symm.trans hprior)
      omega
  | finalized =>
      have hle := hkept.ordered _ _ (hkept.finalized id candidate hstaged hstatus)
      rw [← hlast] at hle
      omega

/-- The authority stands at a candidate that is accepted. -/
theorem Kept.authority_of_accept (hkept : standing.Kept origin)
    (hstaged : standing.staged id = some candidate)
    (hprior : candidate.prior = standing.last candidate.owner)
    (hpassed : standing.HasPassed candidate.owner candidate.point) :
    standing.authority candidate.owner = some candidate.point := by
  obtain ⟨found, hfound, hat⟩ := hpassed
  rcases hat with rfl | hbehind
  · exact hfound
  · have hnext := hkept.next id candidate hstaged
    have haligned := hkept.aligned candidate.owner
    rw [Aligned, hfound] at haligned
    rcases haligned with rfl | ⟨other, leading, hleading, -, -, hahead, hpoint⟩
    · rw [← hprior] at hbehind
      omega
    · have hother := hkept.next other leading hleading
      rw [hahead, hpoint, ← hprior] at hother
      omega

/-! ## Candidates -/

section Candidates

variable [DecidableEq Id]

/-- What holds of a candidate and of all that were staged holds of all that are. -/
theorem forall_staged_stage {holds : Id → Candidate Owner Head → Prop} (hnew : holds id candidate)
    (hold : ∀ other found, standing.staged other = some found → holds other found)
    (other : Id) (found : Candidate Owner Head)
    (hfound : (standing.stage id candidate).staged other = some found) : holds other found := by
  change Function.update standing.staged id (some candidate) other = some found at hfound
  by_cases hother : other = id
  · subst hother
    rw [Function.update_self] at hfound
    rwa [← Option.some.inj hfound]
  · rw [Function.update_of_ne hother] at hfound
    exact hold other found hfound

/-- A point stays covered when a candidate comes to a status that is not prepared. -/
theorem Covered.restage {status : Status} (hcovered : standing.Covered owner point)
    (hstaged : standing.staged id = some candidate) (hstatus : status ≠ .prepared) :
    (standing.stage id (candidate.withStatus status)).Covered owner point := by
  obtain ⟨other, found, hfound, howner, hat, hdone⟩ := hcovered
  by_cases hother : other = id
  · subst hother
    obtain rfl := Option.some.inj (hfound.symm.trans hstaged)
    exact ⟨other, _, Function.update_self _ _ _, howner, hat, hstatus⟩
  · exact ⟨other, found, (Function.update_of_ne hother _ _).trans hfound, howner, hat, hdone⟩

/-- The candidate that leads on from the last accepted point. -/
def LeadsOn (standing : Standing Owner Id Head) (owner : Owner) (found : ℤ × Head)
    (candidate : Candidate Owner Head) : Prop :=
  candidate.owner = owner ∧ candidate.status = .prepared ∧
    candidate.prior = standing.last owner ∧ candidate.point = found

/-- A change of candidates keeps the alignment when it leaves the one that leads on. -/
theorem Aligned.stage (haligned : standing.Aligned origin owner)
    (hkeeps : ∀ found leading, standing.staged id = some leading →
      standing.authority owner = some found → ¬standing.LeadsOn owner found leading) :
    (standing.stage id candidate).Aligned origin owner := by
  rw [Aligned] at haligned ⊢
  change match standing.authority owner with
    | none => standing.last owner = origin
    | some found => found = standing.last owner ∨ _
  cases hauthority : standing.authority owner with
  | none =>
      rw [hauthority] at haligned
      exact haligned
  | some found =>
      rw [hauthority] at haligned
      rcases haligned with hlevel | ⟨other, leading, hleading, hleads⟩
      · exact Or.inl hlevel
      · have hother : other ≠ id := by
          rintro rfl
          exact hkeeps found leading hleading hauthority hleads
        exact Or.inr ⟨other, leading, (Function.update_of_ne hother _ _).trans hleading, hleads⟩

/-- A staged candidate changes its status only. -/
theorem Kept.restage {status : Status} (hkept : standing.Kept origin)
    (hstaged : standing.staged id = some candidate)
    (hleads : ∀ owner found, standing.authority owner = some found →
      ¬standing.LeadsOn owner found candidate)
    (hfinalized : status = .finalized → candidate.point ∈ standing.accepted candidate.owner)
    (hconflict : status = .conflict → standing.Missed candidate.owner candidate.point)
    (hstatus : status ≠ .prepared) :
    (standing.stage id (candidate.withStatus status)).Kept origin where
  aligned := fun owner =>
    (hkept.aligned owner).stage fun found leading hleading hauthority => by
      rw [Option.some.inj (hleading.symm.trans hstaged)]
      exact hleads owner found hauthority
  ordered := hkept.ordered
  ended := hkept.ended
  next := forall_staged_stage (hkept.next id candidate hstaged) hkept.next
  reached := forall_staged_stage (hkept.reached id candidate hstaged) hkept.reached
  finalized := forall_staged_stage hfinalized hkept.finalized
  conflicting := forall_staged_stage hconflict hkept.conflicting
  passed := hkept.passed
  covered := fun owner point hpoint => (hkept.covered owner point hpoint).restage hstaged hstatus

/-- A new candidate is staged after the last accepted point. -/
theorem Kept.stage (hkept : standing.Kept origin) (hfresh : standing.staged id = none)
    (hprior : candidate.prior = standing.last candidate.owner)
    (hnext : candidate.point.1 = candidate.prior.1 + 1)
    (hstatus : candidate.status = .prepared) :
    (standing.stage id candidate).Kept origin where
  aligned := fun owner =>
    (hkept.aligned owner).stage fun found leading hleading => by
      rw [hfresh] at hleading
      cases hleading
  ordered := hkept.ordered
  ended := hkept.ended
  next := forall_staged_stage hnext hkept.next
  reached := forall_staged_stage (congrArg Prod.fst hprior).le hkept.reached
  finalized := forall_staged_stage (fun hdone => by cases hstatus.symm.trans hdone) hkept.finalized
  conflicting :=
    forall_staged_stage (fun hopen => by cases hstatus.symm.trans hopen) hkept.conflicting
  passed := hkept.passed
  covered := fun owner point hpoint => by
    obtain ⟨other, found, hfound, hcovers⟩ := hkept.covered owner point hpoint
    have hother : other ≠ id := by
      rintro rfl
      cases hfresh.symm.trans hfound
    exact ⟨other, found, (Function.update_of_ne hother _ _).trans hfound, hcovers⟩

end Candidates

/-! ## The authority -/

section Authority

variable [DecidableEq Owner]

theorem authority_authorize_self :
    (standing.authorize owner point).authority owner = some point :=
  Function.update_self _ _ _

theorem authority_authorize_of_ne {other : Owner} (hne : other ≠ owner) :
    (standing.authorize owner point).authority other = standing.authority other :=
  Function.update_of_ne hne _ _

theorem movesOn_authorize (hmoves : MovesOn (standing.authority owner) (some point))
    (other : Owner) :
    MovesOn (standing.authority other) ((standing.authorize owner point).authority other) := by
  by_cases hother : other = owner
  · subst hother
    rw [authority_authorize_self]
    exact hmoves
  · rw [authority_authorize_of_ne hother]
    exact movesOn_refl _

/-- The authority of one owner is set, and the rest of the standing stays. -/
theorem Kept.authorize (hkept : standing.Kept origin)
    (haligned : (standing.authorize owner point).Aligned origin owner)
    (hmoves : MovesOn (standing.authority owner) (some point)) :
    (standing.authorize owner point).Kept origin where
  aligned := fun other => by
    by_cases hother : other = owner
    · subst hother
      exact haligned
    · have hold := hkept.aligned other
      rw [Aligned] at hold ⊢
      rwa [authority_authorize_of_ne hother]
  ordered := hkept.ordered
  ended := hkept.ended
  next := hkept.next
  reached := hkept.reached
  finalized := hkept.finalized
  conflicting := fun other found hfound hopen =>
    (hkept.conflicting other found hfound hopen).move (movesOn_authorize hmoves found.owner)
  passed := fun other at' hat => (hkept.passed other at' hat).move (movesOn_authorize hmoves other)
  covered := hkept.covered

theorem Kept.provision (hkept : standing.Kept origin) (hmissing : standing.authority owner = none) :
    (standing.authorize owner origin).Kept origin := by
  refine hkept.authorize ?_ fun found hfound => by cases hmissing.symm.trans hfound
  have hlast := hkept.aligned owner
  rw [Aligned, hmissing] at hlast
  rw [Aligned, authority_authorize_self]
  exact Or.inl hlast.symm

theorem Kept.publish (hkept : standing.Kept origin)
    (hstaged : standing.staged id = some candidate)
    (hprior : standing.authority candidate.owner = some candidate.prior) :
    (standing.authorize candidate.owner candidate.point).Kept origin := by
  have hnext := hkept.next id candidate hstaged
  refine hkept.authorize ?_ fun found hfound => ?_
  · rw [Aligned, authority_authorize_self]
    exact Or.inr ⟨id, candidate, hstaged, rfl, hkept.status_of_publish hstaged hprior,
      hkept.last_of_publish hstaged hprior, rfl⟩
  · obtain rfl := Option.some.inj (hprior.symm.trans hfound)
    exact ⟨_, rfl, Or.inr (by omega)⟩

/-! ## The follower -/

theorem last_accept_self : (standing.accept owner point).last owner = point :=
  Function.update_self _ _ _

theorem last_accept_of_ne {other : Owner} (hne : other ≠ owner) :
    (standing.accept owner point).last other = standing.last other :=
  Function.update_of_ne hne _ _

theorem mem_accepted_accept_self : point ∈ (standing.accept owner point).accepted owner := by
  change point ∈ Function.update standing.accepted owner _ owner
  rw [Function.update_self]
  exact Set.mem_insert _ _

theorem mem_accepted_accept {other : Owner} {found : ℤ × Head}
    (hfound : found ∈ (standing.accept owner point).accepted other) :
    (other = owner ∧ found = point) ∨ found ∈ standing.accepted other := by
  change found ∈ Function.update standing.accepted owner _ other at hfound
  by_cases hother : other = owner
  · subst hother
    rw [Function.update_self] at hfound
    exact hfound.imp_left fun hsame => ⟨rfl, hsame⟩
  · rw [Function.update_of_ne hother] at hfound
    exact Or.inr hfound

/-- What was accepted stays so. -/
theorem accepted_subset_accept (other : Owner) :
    standing.accepted other ⊆ (standing.accept owner point).accepted other := by
  intro found hfound
  change found ∈ Function.update standing.accepted owner _ other
  by_cases hother : other = owner
  · subst hother
    rw [Function.update_self]
    exact Set.mem_insert_of_mem _ hfound
  · rwa [Function.update_of_ne hother]

/-- The follower moves on only. -/
theorem Kept.last_le_accept (hkept : standing.Kept origin)
    (hstaged : standing.staged id = some candidate)
    (hprior : candidate.prior = standing.last candidate.owner) (owner : Owner) :
    (standing.last owner).1 ≤
      ((standing.accept candidate.owner candidate.point).last owner).1 := by
  by_cases howner : owner = candidate.owner
  · subst howner
    have hnext := hkept.next id candidate hstaged
    rw [last_accept_self, ← hprior]
    omega
  · rw [last_accept_of_ne howner]

end Authority

variable [DecidableEq Owner] [DecidableEq Id]

theorem Kept.accept (hkept : standing.Kept origin)
    (hstaged : standing.staged id = some candidate)
    (hprior : candidate.prior = standing.last candidate.owner)
    (hpassed : standing.HasPassed candidate.owner candidate.point) :
    ((standing.accept candidate.owner candidate.point).stage id
      (candidate.withStatus .finalized)).Kept origin where
  aligned := fun owner => by
    by_cases howner : owner = candidate.owner
    · subst howner
      have hauthority := hkept.authority_of_accept hstaged hprior hpassed
      have haccepting :
          (standing.accept candidate.owner candidate.point).authority candidate.owner =
            some candidate.point := hauthority
      refine Aligned.stage ?_ fun found leading hleading hfound hleads => ?_
      · rw [Aligned, haccepting, last_accept_self]
        exact Or.inl rfl
      · obtain rfl := Option.some.inj (hstaged.symm.trans hleading)
        have hnext := hkept.next id candidate hstaged
        have hahead := hleads.2.2.1
        rw [last_accept_self] at hahead
        rw [hahead] at hnext
        omega
    · have hold := hkept.aligned owner
      have haccepting : (standing.accept candidate.owner candidate.point).Aligned origin owner := by
        rw [Aligned, last_accept_of_ne howner]
        exact hold
      refine haccepting.stage fun found leading hleading _ hleads => howner ?_
      rw [Option.some.inj (hstaged.symm.trans hleading)]
      exact hleads.1.symm
  ordered := fun owner point hpoint => by
    rcases mem_accepted_accept hpoint with ⟨rfl, rfl⟩ | hold
    · exact (congrArg Prod.fst last_accept_self).ge
    · exact (hkept.ordered owner point hold).trans (hkept.last_le_accept hstaged hprior owner)
  ended := fun owner => by
    by_cases howner : owner = candidate.owner
    · subst howner
      refine Or.inr ?_
      change (standing.accept candidate.owner candidate.point).last candidate.owner ∈ _
      rw [last_accept_self]
      exact mem_accepted_accept_self
    · change (standing.accept candidate.owner candidate.point).last owner = origin ∨
        (standing.accept candidate.owner candidate.point).last owner ∈ _
      rw [last_accept_of_ne howner]
      exact (hkept.ended owner).imp_right fun hold => accepted_subset_accept owner hold
  next := forall_staged_stage (hkept.next id candidate hstaged) hkept.next
  reached := by
    have hmoves := fun other : Owner => hkept.last_le_accept hstaged hprior other
    exact forall_staged_stage ((hkept.reached id candidate hstaged).trans (hmoves _))
      fun other found hfound => (hkept.reached other found hfound).trans (hmoves _)
  finalized := forall_staged_stage (fun _ => mem_accepted_accept_self)
    fun other found hfound hdone =>
      accepted_subset_accept found.owner (hkept.finalized other found hfound hdone)
  conflicting := forall_staged_stage (fun hopen => by cases hopen) hkept.conflicting
  passed := fun owner point hpoint => by
    rcases mem_accepted_accept hpoint with ⟨rfl, rfl⟩ | hold
    · exact hpassed
    · exact hkept.passed owner point hold
  covered := fun owner point hpoint => by
    rcases mem_accepted_accept hpoint with ⟨rfl, rfl⟩ | hold
    · exact ⟨id, _, Function.update_self _ _ _, rfl, rfl, by rintro ⟨⟩⟩
    · have hcovered : (standing.accept candidate.owner candidate.point).Covered owner point :=
        hkept.covered owner point hold
      exact hcovered.restage hstaged (by rintro ⟨⟩)

end Standing

/-! ## Every change -/

namespace Change

variable [DecidableEq Owner] [DecidableEq Id]
variable {before after : Standing Owner Id Head} {origin : ℤ × Head}

theorem kept (hchange : Change origin before after) (hkept : before.Kept origin) :
    after.Kept origin := by
  cases hchange with
  | same => exact hkept
  | provision hmissing => exact hkept.provision hmissing
  | stage hfresh hprior hnext hstatus => exact hkept.stage hfresh hprior hnext hstatus
  | publish hstaged hprior => exact hkept.publish hstaged hprior
  | @quarantine id candidate hstaged hmissed =>
      refine hkept.restage hstaged (fun owner found hfound hleads => ?_) (by simp)
        (fun _ => hmissed) (by simp)
      obtain ⟨rfl, -, -, rfl⟩ := hleads
      obtain ⟨later, hlater, hne, -⟩ := hmissed
      exact hne (Option.some.inj (hlater.symm.trans hfound))
  | @confirm id candidate hstaged haccepted =>
      refine hkept.restage hstaged (fun owner found hfound hleads => ?_) (fun _ => haccepted)
        (by simp) (by simp)
      obtain ⟨rfl, -, hprior, rfl⟩ := hleads
      have hnext := hkept.next id candidate hstaged
      have hle := hkept.ordered _ _ haccepted
      rw [← hprior] at hle
      omega
  | accept hstaged hprior hpassed => exact hkept.accept hstaged hprior hpassed

/-- The authority moves on only, and from a point that was accepted. -/
theorem accounts (hchange : Change origin before after) (hkept : before.Kept origin)
    {owner : Owner} {point : ℤ × Head} (haccounts : before.Accounts origin owner point) :
    after.Accounts origin owner point := by
  cases hchange with
  | same | stage | quarantine | confirm => exact haccounts
  | @provision provided hmissing =>
      rcases haccounts with hknown | hstands
      · exact Or.inl hknown
      · have howner : owner ≠ provided := by
          rintro rfl
          cases hmissing.symm.trans hstands
        exact Or.inr ((Function.update_of_ne howner _ _).trans hstands)
  | @publish id candidate hstaged hprior =>
      rcases haccounts with hknown | hstands
      · exact Or.inl hknown
      · by_cases howner : owner = candidate.owner
        · subst howner
          obtain rfl := Option.some.inj (hprior.symm.trans hstands)
          rw [Standing.Accounts, hkept.last_of_publish hstaged hprior]
          exact Or.inl (hkept.ended candidate.owner)
        · exact Or.inr ((Function.update_of_ne howner _ _).trans hstands)
  | @accept id candidate hstaged hprior hpassed =>
      rcases haccounts with (horigin | haccepted) | hstands
      · exact Or.inl (Or.inl horigin)
      · exact Or.inl (Or.inr (Standing.accepted_subset_accept owner haccepted))
      · exact Or.inr hstands

/-! ## What no change takes back -/

theorem movesOn (hchange : Change origin before after) (hkept : before.Kept origin)
    (owner : Owner) : Standing.MovesOn (before.authority owner) (after.authority owner) := by
  cases hchange with
  | same | stage | quarantine | confirm | accept => exact Standing.movesOn_refl _
  | provision hmissing =>
      exact Standing.movesOn_authorize (fun found hfound => by cases hmissing.symm.trans hfound) owner
  | @publish id candidate hstaged hprior =>
      refine Standing.movesOn_authorize (fun found hfound => ⟨_, rfl, Or.inr ?_⟩) owner
      obtain rfl := Option.some.inj (hprior.symm.trans hfound)
      have hnext := hkept.next id candidate hstaged
      omega

theorem accepted_subset (hchange : Change origin before after) (owner : Owner) :
    before.accepted owner ⊆ after.accepted owner := by
  cases hchange with
  | same | provision | stage | publish | quarantine | confirm => exact subset_rfl
  | accept => exact Standing.accepted_subset_accept owner

/-- A candidate stays what it is, apart from its status. -/
theorem staged (hchange : Change origin before after) {id : Id} {candidate : Candidate Owner Head}
    (hcandidate : before.staged id = some candidate) :
    ∃ status, after.staged id = some (candidate.withStatus status) := by
  have hrestaged : ∀ {other : Id} {found : Candidate Owner Head} {status : Status},
      before.staged other = some found →
        ∃ status', Function.update before.staged other (some (found.withStatus status)) id =
          some (candidate.withStatus status') := by
    intro other found status hfound
    by_cases hother : id = other
    · subst hother
      obtain rfl := Option.some.inj (hfound.symm.trans hcandidate)
      exact ⟨status, Function.update_self _ _ _⟩
    · exact ⟨candidate.status, (Function.update_of_ne hother _ _).trans hcandidate⟩
  cases hchange with
  | same | provision | publish => exact ⟨candidate.status, hcandidate⟩
  | @stage other found hfresh =>
      have hother : id ≠ other := by
        rintro rfl
        cases hfresh.symm.trans hcandidate
      exact ⟨candidate.status, (Function.update_of_ne hother _ _).trans hcandidate⟩
  | quarantine hstaged | confirm hstaged | accept hstaged => exact hrestaged hstaged

end Change

end AegisForge.Concurrency.StagedAdvance
