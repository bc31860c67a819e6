import AegisForge.Scripts.MigrateCasesToRounds
import AegisForge.Shared.CaseDiagnosis

/-!
# Live roots and the mark of duplicates

The planner is offered a completed root that it has not decided about, and a round lives
by its root.  The script looks at neither: a later root that is completed and has nothing
below it is marked as a duplicate, even if the planner has not seen its result, and even
if it is the only root of its round.
-/

namespace AegisForge.Scripts.MigrateCasesToRounds

open AegisForge.Core AegisForge.Concurrency AegisForge.Shared.TaskQueue

variable {tasks : TaskTable} {evaluationOnly : String → Bool} {root row : TaskRow}
variable {caseId : String}

/-- The script marks the root. -/
def marks (tasks : TaskTable) (root : TaskRow) : Bool :=
  (migrate tasks true).any fun answer => answer.1.deduped.any fun entry => entry.rootId = root.id

/-- The root is completed with a result, and the planner is offered it. -/
def IsOffered (tasks : TaskTable) (evaluationOnly : String → Bool) (root : TaskRow) : Prop :=
  root.status = .completed ∧ root.result.isSome = true ∧ root ∈ planningTasks tasks evaluationOnly

/-- The root belongs to a round of its case that no other root belongs to. -/
def IsOnlyRootOfRound (tasks : TaskTable) (root : TaskRow) : Prop :=
  root.roundId.isSome = true ∧ ∀ other ∈ tasks.rows, other.parentTaskId = none →
    other.researchCaseId = root.researchCaseId → other.roundId = root.roundId →
      other.id = root.id

instance : Decidable (IsOffered tasks evaluationOnly root) :=
  inferInstanceAs (Decidable (_ ∧ _ ∧ _))

instance : Decidable (IsOnlyRootOfRound tasks root) :=
  inferInstanceAs (Decidable (_ ∧ ∀ other ∈ tasks.rows, _))

/-- The script marks no root that is offered to the planner or alone in its round. -/
def SparesLiveRoots (tasks : TaskTable) (evaluationOnly : String → Bool) : Prop :=
  ∀ root ∈ tasks.rows, marks tasks root = true →
    ¬IsOffered tasks evaluationOnly root ∧ ¬IsOnlyRootOfRound tasks root

instance : Decidable (SparesLiveRoots tasks evaluationOnly) :=
  inferInstanceAs (Decidable (∀ root ∈ tasks.rows, _))

/-- Behind the first root of a case the planner is offered none, and one that is alone in its
round is active, has something active or completed below it, or is marked already. -/
def HasOnlyFinishedDuplicates (tasks : TaskTable) (evaluationOnly : String → Bool) : Prop :=
  ∀ caseId root, IsRootAmongSeveral tasks caseId root → ¬IsFirst tasks caseId root →
    ¬IsOffered tasks evaluationOnly root ∧
      (IsOnlyRootOfRound tasks root → isActive root = true ∨
        (∃ row, IsDescendant tasks root.id row ∧ (isActive row = true ∨ isCompleted row = true)) ∨
          root.plannerDecision = some dedupedRoot)

/-! ## Which roots the script marks -/

theorem mem_tail_rootsOf_iff :
    root ∈ (rootsOf tasks caseId).tail ↔
      root ∈ rootsOf tasks caseId ∧ isFirstRoot tasks root = false := by
  constructor
  · exact fun hroot => ⟨List.mem_of_mem_tail hroot, isFirstRoot_eq_false_of_mem_tail hroot⟩
  · rintro ⟨hroot, hlater⟩
    rw [← Bool.not_eq_true, isFirstRoot_iff_of_mem_rootsOf hroot] at hlater
    cases hroots : rootsOf tasks caseId with
    | nil =>
        rw [hroots] at hroot
        cases hroot
    | cons first rest =>
        rw [hroots] at hroot hlater
        rcases List.mem_cons.mp hroot with rfl | hrest
        · exact absurd rfl hlater
        · exact hrest

theorem marks_iff (hroot : root ∈ tasks.rows) :
    marks tasks root = true ↔ ∃ caseId, IsRootAmongSeveral tasks caseId root ∧
      IsDuplicate tasks caseId root ∧ root.plannerDecision ≠ some dedupedRoot := by
  have hmarks : marks tasks root = true ↔ ∃ caseId ∈ duplicateCases tasks,
      ∃ other ∈ (rootsOf tasks caseId).tail, isSpared tasks other = false ∧
        other.plannerDecision ≠ some dedupedRoot ∧ other.id = root.id := by
    simp only [marks, migrate_eq, Option.any_some, List.any_eq_true, reported, List.mem_flatMap,
      dedupedOfCase, dedupedOf, decide_eq_true_eq]
    constructor
    · rintro ⟨entry, ⟨caseId, hcase, other, hother, hentry⟩, hsame⟩
      split at hentry
      case isTrue => cases hentry
      case isFalse hduplicate =>
        obtain ⟨hidle, hunmarked⟩ := not_or.mp hduplicate
        obtain rfl := List.mem_singleton.mp hentry
        exact ⟨caseId, hcase, other, hother, Bool.eq_false_iff.mpr hidle, hunmarked, hsame⟩
    · rintro ⟨caseId, hcase, other, hother, hidle, hunmarked, hsame⟩
      refine ⟨⟨other.id, caseId⟩, ⟨caseId, hcase, other, hother, ?_⟩, hsame⟩
      rw [if_neg (by simp [hidle, hunmarked])]
      exact List.mem_singleton_self _
  rw [hmarks]
  constructor
  · rintro ⟨caseId, hcase, other, hother, hidle, hunmarked, hsame⟩
    obtain ⟨hmem, hlater⟩ := mem_tail_rootsOf_iff.mp hother
    obtain rfl := Table.eq_of_unique_eq (mem_rootsOf.mp hmem).1 hroot hsame
    refine ⟨caseId, isRootAmongSeveral_iff.mpr ⟨hmem, hcase⟩, ?_, hunmarked⟩
    rw [← Bool.not_eq_true, isFirstRoot_iff hmem] at hlater
    rw [← Bool.not_eq_true, isSpared_iff] at hidle
    simp only [not_or, not_exists, not_and] at hidle
    exact ⟨hlater, hidle⟩
  · rintro ⟨caseId, hseveral, ⟨hlater, hidle⟩, hunmarked⟩
    obtain ⟨hmem, hcase⟩ := isRootAmongSeveral_iff.mp hseveral
    refine ⟨caseId, hcase, root, mem_tail_rootsOf_iff.mpr ⟨hmem, ?_⟩, ?_, hunmarked, rfl⟩
    · rwa [← Bool.not_eq_true, isFirstRoot_iff hmem]
    · rw [← Bool.not_eq_true, isSpared_iff]
      simpa only [not_or, not_exists, not_and] using hidle

/-! ## Offered roots -/

/-- Below a task without children there is nothing. -/
theorem not_isDescendant_of_isChildless (hchildless : isChildless tasks root = true) :
    ¬IsDescendant tasks root.id row := by
  rintro ⟨-, hway⟩
  obtain ⟨childId, ⟨child, hchild, -, hparent⟩, -⟩ := Relation.TransGen.head'_iff.mp hway
  rw [isChildless, List.all_eq_true] at hchildless
  exact absurd hparent (by simpa using hchildless child hchild)

/-- The planner is offered no root that is marked already, and nothing is below an offered one. -/
theorem isDuplicate_of_isOffered (hoffered : IsOffered tasks evaluationOnly root)
    (hlater : ¬IsFirst tasks caseId root) :
    IsDuplicate tasks caseId root ∧ root.plannerDecision ≠ some dedupedRoot := by
  obtain ⟨hcompleted, -, hplanning⟩ := hoffered
  obtain ⟨-, -, hopen, hchildless⟩ := (mem_planningTasks_iff hcompleted).mp hplanning
  refine ⟨⟨hlater, ?_, fun row hbelow => ?_⟩, fun hmarked => ?_⟩
  · rw [isActive, TaskRow.isPending, TaskRow.isRunning, hcompleted]
    decide
  · exact absurd hbelow (not_isDescendant_of_isChildless hchildless)
  · rw [isOpenForPlanner, hmarked] at hopen
    revert hopen
    decide

theorem sparesLiveRoots_iff :
    SparesLiveRoots tasks evaluationOnly ↔ HasOnlyFinishedDuplicates tasks evaluationOnly := by
  constructor
  · intro hspares caseId root hseveral hlater
    have hroot := hseveral.1
    constructor
    · intro hoffered
      have hduplicate := isDuplicate_of_isOffered hoffered hlater
      exact (hspares root hroot ((marks_iff hroot).mpr ⟨caseId, hseveral, hduplicate⟩)).1 hoffered
    · intro honly
      by_contra hidle
      simp only [not_or, not_exists, not_and] at hidle
      obtain ⟨hactive, hbelow, hunmarked⟩ := hidle
      have hmarks := (marks_iff hroot).mpr
        ⟨caseId, hseveral, ⟨hlater, hactive, hbelow⟩, hunmarked⟩
      exact (hspares root hroot hmarks).2 honly
  · intro hfinished root hroot hmarks
    obtain ⟨caseId, hseveral, ⟨hlater, hactive, hbelow⟩, hunmarked⟩ := (marks_iff hroot).mp hmarks
    obtain ⟨hoffered, honly⟩ := hfinished caseId root hseveral hlater
    refine ⟨hoffered, fun halone => ?_⟩
    rcases honly halone with hlive | ⟨row, hdescendant, hlive⟩ | hmarked
    · exact hactive hlive
    · obtain ⟨hidle, hopen⟩ := hbelow row hdescendant
      exact hlive.elim hidle hopen
    · exact hunmarked hmarked

/-! ## Runs -/

/-- Workers, the planner, the starts of rounds and the maintenance change the store, or the
script is applied. -/
inductive Step
  | store (statement : CaseDiagnosis.Statement)
  | migrate

def take (world : World) : Step → World
  | .store statement => CaseDiagnosis.perform world statement
  | .migrate => { world with tasks := (migrate world.tasks true).elim world.tasks Prod.snd }

theorem run_singleton (world : World) (step : Step) :
    run take world [step] = take world step := rfl

theorem take_store (world : World) (statement : CaseDiagnosis.Statement) :
    take world (.store statement) = CaseDiagnosis.perform world statement := rfl

/-- In every state that statements and runs of the script lead to, the script spares the live
roots exactly if the later roots are finished. -/
theorem sparesLiveRoots_run_iff (start : World) (steps : List Step)
    (evaluationOnly : String → Bool) :
    SparesLiveRoots (run take start steps).tasks evaluationOnly ↔
      HasOnlyFinishedDuplicates (run take start steps).tasks evaluationOnly :=
  sparesLiveRoots_iff

namespace Sample

open AegisForge.Shared.ResearchCaseRegistry (payload? encoded getResearchCase)
open AegisForge.Shared.ResearchCaseRegistry (getResearchCase_of_payload?)
open AegisForge.Shared.TaskQueue.Sample (noon later)

def case : AegisForge.Shared.ResearchCase := AegisForge.Shared.ResearchCaseRegistry.Sample.first

def begins (roundId rootTaskId : String) (now : DateTime) : Step :=
  .store (.startCaseRound (.text "case-1") roundId rootTaskId now)

/-- A worker takes a root and completes it. -/
def completes (taskId : String) (now : DateTime) : List Step :=
  [.store (.history (.queue (.claimNext "worker-1" none now.isoText))),
    .store (.history (.queue (.report taskId .completed (some "done") now.isoText)))]

/-- The root of the first round is completed and decided. -/
def concludes : List Step :=
  completes "task-1" noon ++ [.store (.markPlannerDecision "task-1" (some "COMPLETE"))]

/-- A case has a round whose root is decided, and a second one whose root has just been
completed. -/
def secondRound : List Step :=
  [.store (CaseDiagnosis.Sample.register case)] ++ [begins "round-1" "task-1" noon] ++ concludes ++
    [begins "round-2" "task-2" later] ++ completes "task-2" later

def registered : World :=
  CaseDiagnosis.perform (World.empty Table.empty []) (CaseDiagnosis.Sample.register case)

theorem runnableCase_eq_ok {world : World} (hcases : world.cases = registered.cases) :
    runnableCase "case-1" world = .ok case := by
  have hpayload : payload? world.cases case.caseId = some (encoded case) := by
    rw [hcases]
    rfl
  have hfound : getResearchCase world.cases "case-1" = .ok (some case) :=
    getResearchCase_of_payload? case hpayload
  rw [runnableCase, hfound]
  rfl

/-- The store with a round, unless the case is not idle. -/
def inserted (world : World) (roundId rootTaskId : String) (now : DateTime) : World :=
  match checkIdle "case-1" world, insertRound case "case-1" roundId rootTaskId now.isoText world with
  | .ok _, .ok (_, after) => after
  | _, _ => world

theorem take_begins {world : World} (hcases : world.cases = registered.cases)
    (roundId rootTaskId : String) (now : DateTime) :
    take world (begins roundId rootTaskId now) = inserted world roundId rootTaskId now := by
  have hid : orRaise (caseRoundError "case_id_required")
      (((PyValue.text "case-1").text?).filter fun text => !isBlank text) =
        .ok "case-1" := by decide +kernel
  rw [begins, take, CaseDiagnosis.perform, operate, startCaseRound, hid, inserted]
  dsimp only [bind, Except.bind]
  rw [runnableCase_eq_ok hcases]
  dsimp only
  cases checkIdle "case-1" world with
  | error raised => rfl
  | ok idle =>
      dsimp only
      cases insertRound case "case-1" roundId rootTaskId now.isoText world with
      | error raised => rfl
      | ok answer => rfl

theorem cases_inserted (world : World) (roundId rootTaskId : String) (now : DateTime) :
    (inserted world roundId rootTaskId now).cases = world.cases := by
  rw [inserted]
  split
  case h_1 started after _ hinsert =>
    simp only [insertRound, orRaise_bind_eq_ok_iff] at hinsert
    obtain ⟨tasks, -, rounds, -, hafter⟩ := hinsert
    obtain rfl := (Prod.mk.inj (Except.ok.inj hafter)).2
    rfl
  case h_2 => rfl

/-- The store after the first round. -/
def firstDecided : World :=
  run take (inserted registered "round-1" "task-1" noon) concludes

/-- The store after the second round. -/
def secondCompleted : World :=
  run take (inserted firstDecided "round-2" "task-2" later) (completes "task-2" later)

theorem run_secondRound :
    run take (World.empty Table.empty []) secondRound = secondCompleted := by
  have hfirst : take registered (begins "round-1" "task-1" noon) =
      inserted registered "round-1" "task-1" noon := take_begins rfl "round-1" "task-1" noon
  have hcases : firstDecided.cases = registered.cases :=
    cases_inserted registered "round-1" "task-1" noon
  have hsecond := take_begins hcases "round-2" "task-2" later
  rw [secondRound, run_append, run_append, run_append, run_append, run_singleton, run_singleton,
    run_singleton, take_store]
  have hregistered : CaseDiagnosis.perform (World.empty Table.empty [])
      (CaseDiagnosis.Sample.register case) = registered := (registered.eq_def).symm
  rw [hregistered, hfirst, ← firstDecided, hsecond, secondCompleted]

end Sample

/-- The root of the second round is marked before the planner has seen its result. -/
theorem not_sparesLiveRoots_secondRound :
    ¬∀ (steps : List Step) (evaluationOnly : String → Bool),
      SparesLiveRoots (run take (World.empty Table.empty []) steps).tasks evaluationOnly := by
  intro hall
  have hspares := hall Sample.secondRound fun _ => false
  rw [Sample.run_secondRound] at hspares
  revert hspares
  decide +kernel

end AegisForge.Scripts.MigrateCasesToRounds
