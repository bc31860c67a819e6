import AegisForge.Core.Ranking
import AegisForge.Core.Runs
import AegisForge.Shared.CaseRoundTrip
import AegisForge.Shared.HistoryCompaction

/-!
# The diagnosis of a case

`diagnose_case_state` looks at what `start_case_round` checks, in another order.  A
case whose status is terminal is told apart from an idle one, but a draft, for which
no round can be started either, is not.
-/

namespace AegisForge.Shared.TaskQueue.CaseDiagnosis

open AegisForge.Core AegisForge.Concurrency

/-! ## The diagnosis -/

/-- The values of `state`. -/
inductive CaseState
  | active
  | blocked
  | terminal
  | idleAwaitingInput
  deriving DecidableEq, Repr

def CaseState.value : CaseState → String
  | .active => "active"
  | .blocked => "blocked"
  | .terminal => "terminal"
  | .idleAwaitingInput => "idle_awaiting_input"

/-- How many tasks of a case have each status. -/
structure StatusCounts where
  pending : ℕ
  running : ℕ
  completed : ℕ
  failed : ℕ
  deriving DecidableEq

/-- What `diagnose_case_state` returns; only a registered case has a status. -/
structure Diagnosis where
  caseId : String
  caseStatus : Option String
  state : CaseState
  reason : String
  counts : StatusCounts
  openReviews : ℕ

/-- `SELECT COUNT(*) FROM queue WHERE research_case_id = ? AND status = ?`. -/
def countStatus (caseId : String) (tasks : TaskTable) (status : TaskStatus) : ℕ :=
  ((ofCase caseId tasks).filter fun row => row.status = status).length

/-- The counts of a case, where a status that no task has counts zero. -/
def statusCounts (caseId : String) (tasks : TaskTable) : StatusCounts where
  pending := countStatus caseId tasks .pending
  running := countStatus caseId tasks .running
  completed := countStatus caseId tasks .completed
  failed := countStatus caseId tasks .failed

def countOpenReviews (caseId : String) (reviews : List HumanReview) : ℕ :=
  (reviews.filter fun review => review.caseId = caseId && review.isOpen).length

/-- The statuses in which a case is over. -/
def isTerminal (status : CaseStatus) : Bool :=
  status ∈ [.confirmed, .rejected, .inconclusive, .outOfScope]

/-- The state and the reason of a registered case. -/
def stateOf (status : CaseStatus) (counts : StatusCounts) (openReviews : ℕ) :
    CaseState × String :=
  if counts.pending ≠ 0 ∨ counts.running ≠ 0 then (.active, "case_has_active_tasks")
  else if openReviews ≠ 0 then (.blocked, "human_review_required")
  else if isTerminal status = true then (.terminal, s!"research_case_terminal:{status.value}")
  else if counts.failed ≠ 0 then (.blocked, "failed_tasks_require_operator_review")
  else (.idleAwaitingInput, "explicit_operator_action_required")

/-- `diagnose_case_state`. -/
def diagnoseCaseState (caseId : PyValue) (world : World) : Except Raised Diagnosis := do
  let caseId ← orRaise (caseRoundError "case_id_required")
    (caseId.text?.filter fun text => !isBlank text)
  let found ← ResearchCaseRegistry.getResearchCase world.cases caseId
  match found with
  | none =>
      return {
        caseId
        caseStatus := none
        state := .blocked
        reason := "research_case_not_registered"
        counts := ⟨0, 0, 0, 0⟩
        openReviews := 0 }
  | some case =>
      let counts := statusCounts caseId world.tasks
      let openReviews := countOpenReviews caseId world.reviews
      let (state, reason) := stateOf case.status counts openReviews
      return { caseId, caseStatus := some case.status.value, state, reason, counts, openReviews }

/-! ## Agreement -/

def ReportsIdle (caseId : PyValue) (world : World) : Prop :=
  ∃ diagnosis, diagnoseCaseState caseId world = .ok diagnosis ∧
    diagnosis.state = .idleAwaitingInput

/-- `start_case_round` starts a round with these ids. -/
def CanStart (caseId : PyValue) (roundId rootTaskId : String) (now : DateTime)
    (world : World) : Prop :=
  ∃ started, startCaseRound caseId roundId rootTaskId now world = .ok started

/-- `uuid4` answers ids that no task and no round has. -/
def IsFresh (roundId rootTaskId : String) (world : World) : Prop :=
  world.tasks.lookup rootTaskId = none ∧
    ∀ round ∈ world.rounds.rows, round.roundId ≠ roundId ∧ round.rootTaskId ≠ rootTaskId

/-- Every task of the case is completed, and no review of it is open. -/
def IsIdle (caseId : String) (world : World) : Prop :=
  (∀ row ∈ world.tasks.rows, row.researchCaseId = some caseId → row.status = .completed) ∧
    ∀ review ∈ world.reviews, review.caseId = caseId → review.isOpen = false

/-- The id is that of a registered draft that nothing else keeps from a new round. -/
def IsIdleDraft (caseId : PyValue) (world : World) : Prop :=
  ∃ text case, caseId.text? = some text ∧
    ResearchCaseRegistry.getResearchCase world.cases text = .ok (some case) ∧
      case.status = .draft ∧ IsIdle text world

section Agreement

variable {world : World} {caseId : String} {case : ResearchCase} {counts : StatusCounts}

theorem countStatus_eq_zero_iff {tasks : TaskTable} {status : TaskStatus} :
    countStatus caseId tasks status = 0 ↔
      ∀ row ∈ tasks.rows, row.researchCaseId = some caseId → row.status ≠ status := by
  rw [countStatus, List.length_eq_zero_iff, List.filter_eq_nil_iff]
  simp only [ofCase, List.mem_filter, decide_eq_true_eq, and_imp]

theorem countOpenReviews_eq_zero_iff {reviews : List HumanReview} :
    countOpenReviews caseId reviews = 0 ↔
      ∀ review ∈ reviews, review.caseId = caseId → review.isOpen = false := by
  rw [countOpenReviews, List.length_eq_zero_iff, List.filter_eq_nil_iff]
  simp only [Bool.and_eq_true, decide_eq_true_eq, not_and, Bool.not_eq_true]

/-- A case is idle if it counts no task but completed ones, and no open review. -/
theorem isIdle_iff_counts : IsIdle caseId world ↔
    ((statusCounts caseId world.tasks).pending = 0 ∧
      (statusCounts caseId world.tasks).running = 0) ∧
        countOpenReviews caseId world.reviews = 0 ∧
          (statusCounts caseId world.tasks).failed = 0 := by
  simp only [IsIdle, statusCounts, countStatus_eq_zero_iff, countOpenReviews_eq_zero_iff]
  constructor
  · rintro ⟨hcompleted, hclosed⟩
    refine ⟨⟨?_, ?_⟩, hclosed, ?_⟩
    all_goals
      intro row hrow hcase
      rw [hcompleted row hrow hcase]
      decide
  · rintro ⟨⟨hpending, hrunning⟩, hclosed, hfailed⟩
    refine ⟨fun row hrow hcase => ?_, hclosed⟩
    have hnotPending := hpending row hrow hcase
    have hnotRunning := hrunning row hrow hcase
    have hnotFailed := hfailed row hrow hcase
    cases hstatus : row.status with
    | completed => rfl
    | pending => exact absurd hstatus hnotPending
    | running => exact absurd hstatus hnotRunning
    | failed => exact absurd hstatus hnotFailed

/-- The state of a registered case is idle where nothing is left to do and its
status is not terminal. -/
theorem stateOf_eq_idle_iff {status : CaseStatus} {openReviews : ℕ} :
    (stateOf status counts openReviews).1 = .idleAwaitingInput ↔
      (counts.pending = 0 ∧ counts.running = 0) ∧ openReviews = 0 ∧ counts.failed = 0 ∧
        isTerminal status = false := by
  rw [stateOf]
  split_ifs with hactive hreviews hterminal hfailed
  · simp only [false_iff]
    omega
  · simp [hreviews]
  · simp [hterminal]
  · simp [hfailed]
  · simp_all

theorem reportsIdle_iff (value : PyValue) : ReportsIdle value world ↔
    ∃ text case, value.text? = some text ∧ isBlank text = false ∧
      ResearchCaseRegistry.getResearchCase world.cases text = .ok (some case) ∧
        isTerminal case.status = false ∧ IsIdle text world := by
  simp only [ReportsIdle, diagnoseCaseState, orRaise_bind_eq_ok_iff,
    Option.filter_eq_some_iff, Bool.not_eq_true']
  simp only [bind_eq_ok_iff]
  constructor
  · rintro ⟨diagnosis, ⟨text, ⟨htext, hblank⟩, found, hfound, hdiagnosis⟩, hstate⟩
    cases found with
    | none =>
        rw [← Except.ok.inj hdiagnosis] at hstate
        cases hstate
    | some case =>
        rw [← Except.ok.inj hdiagnosis] at hstate
        obtain ⟨hactive, hreviews, hfailed, hterminal⟩ := stateOf_eq_idle_iff.mp hstate
        exact ⟨text, case, htext, hblank, hfound, hterminal,
          isIdle_iff_counts.mpr ⟨hactive, hreviews, hfailed⟩⟩
  · rintro ⟨text, case, htext, hblank, hfound, hterminal, hidle⟩
    obtain ⟨hactive, hreviews, hfailed⟩ := isIdle_iff_counts.mp hidle
    exact ⟨_, ⟨text, ⟨htext, hblank⟩, some case, hfound, rfl⟩,
      stateOf_eq_idle_iff.mpr ⟨hactive, hreviews, hfailed, hterminal⟩⟩

/-! ### The starter -/

theorem activeTask_eq_none_iff {tasks : TaskTable} : activeTask caseId tasks = none ↔
    countStatus caseId tasks .pending = 0 ∧ countStatus caseId tasks .running = 0 := by
  rw [activeTask, byCreation, head?_insertionSort_eq_none_iff, List.filter_eq_nil_iff,
    countStatus_eq_zero_iff, countStatus_eq_zero_iff]
  simp only [ofCase, List.mem_filter, decide_eq_true_eq, TaskRow.isPending, TaskRow.isRunning,
    Bool.or_eq_true, not_or, and_imp]
  constructor
  · exact fun hnone => ⟨fun row hrow hcase => (hnone row hrow hcase).1,
      fun row hrow hcase => (hnone row hrow hcase).2⟩
  · exact fun hnone row hrow hcase => ⟨hnone.1 row hrow hcase, hnone.2 row hrow hcase⟩

theorem openReview_eq_none_iff {reviews : List HumanReview} :
    openReview caseId reviews = none ↔ countOpenReviews caseId reviews = 0 := by
  rw [openReview, head?_insertionSort_eq_none_iff, countOpenReviews, List.length_eq_zero_iff]

theorem failedTask_eq_none_iff {tasks : TaskTable} :
    failedTask caseId tasks = none ↔ countStatus caseId tasks .failed = 0 := by
  rw [failedTask, head?_insertionSort_eq_none_iff, countStatus, List.length_eq_zero_iff]
  rfl

/-- The checks pass exactly for an idle case. -/
theorem checkIdle_eq_ok_iff : checkIdle caseId world = .ok () ↔ IsIdle caseId world := by
  have hcounts : IsIdle caseId world ↔ activeTask caseId world.tasks = none ∧
      openReview caseId world.reviews = none ∧ failedTask caseId world.tasks = none := by
    rw [isIdle_iff_counts, activeTask_eq_none_iff, openReview_eq_none_iff, failedTask_eq_none_iff]
    rfl
  rw [hcounts, checkIdle]
  cases activeTask caseId world.tasks with
  | some task =>
      constructor
      · intro hok
        cases hok
      · intro hnone
        cases hnone.1
  | none =>
      cases openReview caseId world.reviews with
      | some review =>
          constructor
          · intro hok
            cases hok
          · intro hnone
            cases hnone.2.1
      | none =>
          cases failedTask caseId world.tasks with
          | some task =>
              constructor
              · intro hok
                cases hok
              · intro hnone
                cases hnone.2.2
          | none => exact ⟨fun _ => ⟨rfl, rfl, rfl⟩, fun _ => rfl⟩

/-- With fresh ids both inserts succeed. -/
theorem exists_insertRound (case : ResearchCase) {roundId rootTaskId : String} (createdAt : String)
    (hfresh : IsFresh roundId rootTaskId world) :
    ∃ started, insertRound case caseId roundId rootTaskId createdAt world = .ok started := by
  have hunused : world.tasks.lookup rootTaskId = none := hfresh.1
  obtain ⟨tasks, htasks⟩ := Table.exists_insert? world.tasks
    (rootTask caseId roundId rootTaskId
      (roundDescription case (nextRoundNumber caseId world) roundId) createdAt)
    hunused (Table.lookup_eq_none_iff.mp hunused)
  have hround : world.rounds.lookup roundId = none := by
    rw [Table.lookup_eq_none_iff]
    intro hmem
    obtain ⟨round, hround, hid⟩ := List.mem_map.mp hmem
    exact (hfresh.2 round hround).1 hid
  have hroot : rootTaskId ∉ world.rounds.rows.map CaseRound.rootTaskId := by
    intro hmem
    obtain ⟨round, hround, hid⟩ := List.mem_map.mp hmem
    exact (hfresh.2 round hround).2 hid
  obtain ⟨rounds, hrounds⟩ := Table.exists_insert? world.rounds
    ⟨roundId, caseId, nextRoundNumber caseId world, rootTaskId⟩ hround hroot
  exact ⟨_, orRaise_bind_eq_ok_iff.mpr ⟨tasks, htasks,
    orRaise_bind_eq_ok_iff.mpr ⟨rounds, hrounds, rfl⟩⟩⟩

/-- Every stored payload is that of a registered case, under the id of the case. -/
def HasRegisteredCases (world : World) : Prop :=
  ∀ row ∈ world.cases.rows, ∃ case, row = ResearchCaseRegistry.rowOf case

/-- The case that is read by an id has the id. -/
theorem caseId_of_getResearchCase (hregistered : HasRegisteredCases world)
    (hfound : ResearchCaseRegistry.getResearchCase world.cases caseId = .ok (some case)) :
    case.caseId = caseId := by
  obtain ⟨row, hlookup⟩ : ∃ row, world.cases.lookup caseId = some row :=
    Option.isSome_iff_exists.mp (registered_of_getResearchCase hfound)
  obtain ⟨stored, rfl⟩ := hregistered row (Table.mem_of_lookup hlookup)
  have hkey : (ResearchCaseRegistry.rowOf stored).caseId = caseId := Table.key_of_lookup hlookup
  change stored.caseId = caseId at hkey
  have hpayload : ResearchCaseRegistry.payload? world.cases stored.caseId =
      some (ResearchCaseRegistry.encoded stored) := by
    rw [ResearchCaseRegistry.payload?, hkey, hlookup]
    rfl
  have hread := ResearchCaseRegistry.getResearchCase_of_payload? stored hpayload
  rw [hkey, hfound] at hread
  rw [Option.some.inj (Except.ok.inj hread), hkey]

theorem runnableCase_eq_ok_iff : runnableCase caseId world = .ok case ↔
    ResearchCaseRegistry.getResearchCase world.cases caseId = .ok (some case) ∧
      case.status.isRunnable = true ∧ caseId = case.caseId ∧ case.caseId ≠ "" := by
  rw [runnableCase, bind_eq_ok_iff]
  simp only [validateTaskBinding, orRaise_bind_eq_ok_iff, raiseUnless_bind_eq_ok_iff,
    Option.some.injEq]
  constructor
  · rintro ⟨found, hfound, read, rfl, hrunnable, bound, rfl, hbinding, -, hreturn⟩
    obtain rfl := Except.ok.inj hreturn
    exact ⟨hfound, hrunnable, hbinding⟩
  · rintro ⟨hfound, hrunnable, hbinding⟩
    exact ⟨some case, hfound, case, rfl, hrunnable, case, rfl, hbinding, hrunnable, rfl⟩

theorem canStart_iff (hregistered : HasRegisteredCases world) {value : PyValue}
    {roundId rootTaskId : String} {now : DateTime} (hfresh : IsFresh roundId rootTaskId world) :
    CanStart value roundId rootTaskId now world ↔ ∃ text case, value.text? = some text ∧
      isBlank text = false ∧
        ResearchCaseRegistry.getResearchCase world.cases text = .ok (some case) ∧
          case.status.isRunnable = true ∧ IsIdle text world := by
  simp only [CanStart, startCaseRound, orRaise_bind_eq_ok_iff, Option.filter_eq_some_iff,
    Bool.not_eq_true']
  simp only [bind_eq_ok_iff, runnableCase_eq_ok_iff]
  constructor
  · rintro ⟨started, text, ⟨htext, hblank⟩, case, ⟨hfound, hrunnable, -⟩, _, hidle, -⟩
    exact ⟨text, case, htext, hblank, hfound, hrunnable, checkIdle_eq_ok_iff.mp hidle⟩
  · rintro ⟨text, case, htext, hblank, hfound, hrunnable, hidle⟩
    have hid := caseId_of_getResearchCase hregistered hfound
    have hnamed : case.caseId ≠ "" := by
      intro hempty
      rw [← hid, hempty] at hblank
      cases hblank
    obtain ⟨started, hstarted⟩ := exists_insertRound case now.isoText hfresh
    exact ⟨started, text, ⟨htext, hblank⟩, case, ⟨hfound, hrunnable, hid.symm, hnamed⟩, (),
      checkIdle_eq_ok_iff.mpr hidle, hstarted⟩

/-- A status is terminal, runnable or that of a draft. -/
theorem isTerminal_eq_false_iff {status : CaseStatus} :
    isTerminal status = false ↔ status.isRunnable = true ∨ status = .draft := by
  cases status <;> decide

/-- Diagnosis and starter agree on all cases but idle drafts. -/
theorem agrees_iff (hregistered : HasRegisteredCases world) {value : PyValue}
    {roundId rootTaskId : String} {now : DateTime} (hfresh : IsFresh roundId rootTaskId world) :
    (ReportsIdle value world ↔ CanStart value roundId rootTaskId now world) ↔
      ¬IsIdleDraft value world := by
  rw [reportsIdle_iff, canStart_iff hregistered hfresh]
  constructor
  · rintro hagrees ⟨text, case, htext, hfound, hdraft, hidle⟩
    have hblank : isBlank text = false := by
      rw [← caseId_of_getResearchCase hregistered hfound]
      exact case.isBlank_caseId
    have hterminal : isTerminal case.status = false := isTerminal_eq_false_iff.mpr (Or.inr hdraft)
    obtain ⟨other, started, hother, -, hread, hrunnable, -⟩ :=
      hagrees.mp ⟨text, case, htext, hblank, hfound, hterminal, hidle⟩
    rw [htext, Option.some.injEq] at hother
    rw [← hother, hfound, Except.ok.injEq, Option.some.injEq] at hread
    rw [← hread, hdraft] at hrunnable
    cases hrunnable
  · intro hnot
    constructor
    · rintro ⟨text, case, htext, hblank, hfound, hterminal, hidle⟩
      rcases isTerminal_eq_false_iff.mp hterminal with hrunnable | hdraft
      · exact ⟨text, case, htext, hblank, hfound, hrunnable, hidle⟩
      · exact absurd ⟨text, case, htext, hfound, hdraft, hidle⟩ hnot
    · rintro ⟨text, case, htext, hblank, hfound, hrunnable, hidle⟩
      exact ⟨text, case, htext, hblank, hfound,
        isTerminal_eq_false_iff.mpr (Or.inl hrunnable), hidle⟩

end Agreement

/-! ## Runs -/

/-- What callers do to the store in any order: the statements of workers and of
compactions of the history, the transaction of `start_case_round`, other maintenance,
decisions of the planner, and any change of the reviews. -/
inductive Statement
  | history (statement : HistoryCompaction.Statement)
  | startCaseRound (caseId : PyValue) (roundId rootTaskId : String) (now : DateTime)
  | repairActiveOrphans
  | compactCompletedResults (olderThanDays keepAncestorDepth limit : ℤ) (now : DateTime)
  | markPlannerDecision (taskId : String) (decision : Option String)
  | changeReviews (reviews : List HumanReview)

def perform (world : World) : Statement → World
  | .history statement => (HistoryCompaction.execute statement world).2
  | .startCaseRound caseId roundId rootTaskId now =>
      operate world (.startCaseRound caseId roundId rootTaskId now)
  | .repairActiveOrphans => operate world .repairActiveOrphans
  | .compactCompletedResults olderThanDays keepAncestorDepth limit now =>
      operate world (.compactCompletedResults olderThanDays keepAncestorDepth limit now)
  | .markPlannerDecision taskId decision =>
      { world with tasks := TaskQueue.markPlannerDecision world.tasks taskId decision }
  | .changeReviews reviews => { world with reviews }

/-- Cases are inserted by `register_research_case` alone. -/
def InsertsRegistered (_ : World) : Statement → Prop
  | .history (.queue (.cases (.insertOrIgnore row))) => ∃ case, row = ResearchCaseRegistry.rowOf case
  | _ => True

/-- The round that a statement starts. -/
def startedRound? (world : World) : Statement → Option StartedRound
  | .startCaseRound caseId roundId rootTaskId now =>
      (startCaseRound caseId roundId rootTaskId now world).toOption.map Prod.fst
  | _ => none

/-- The rounds that a run starts, in their order. -/
def startedRounds : World → List Statement → List StartedRound
  | _, [] => []
  | world, statement :: rest =>
      (startedRound? world statement).toList ++ startedRounds (perform world statement) rest

/-- The numbers of the rounds of one case that a run starts. -/
def assignedNumbers (caseId : String) (world : World) (statements : List Statement) : List ℕ :=
  ((startedRounds world statements).filter (·.caseId = caseId)).map StartedRound.roundNumber

/-- The row of `research_case_rounds` of a started round. -/
def recordOf (started : StartedRound) : CaseRound :=
  ⟨started.roundId, started.caseId, started.roundNumber, started.rootTaskId⟩

section Runs

variable {world : World} {statement : Statement} {caseId : String} {number : ℕ}
variable {started : StartedRound}

/-- A round of the case has been recorded with the number. -/
def IsRecorded (caseId : String) (number : ℕ) (world : World) : Prop :=
  ∃ round ∈ world.rounds.rows, round.caseId = caseId ∧ round.roundNumber = number

theorem le_foldr_max {numbers : List ℕ} (hmem : number ∈ numbers) :
    number ≤ numbers.foldr max 0 := by
  induction numbers with
  | nil => cases hmem
  | cons first rest ih =>
      rw [List.foldr_cons]
      rcases List.mem_cons.mp hmem with rfl | hrest
      · exact le_max_left _ _
      · exact (ih hrest).trans (le_max_right _ _)

theorem lt_nextRoundNumber (hrecorded : IsRecorded caseId number world) :
    number < nextRoundNumber caseId world := by
  obtain ⟨round, hround, hcase, rfl⟩ := hrecorded
  have hmem : round.roundNumber ∈
      (world.rounds.rows.filter (·.caseId = caseId)).map CaseRound.roundNumber :=
    List.mem_map_of_mem (List.mem_filter.mpr ⟨hround, by simpa using hcase⟩)
  exact (Nat.lt_succ_of_le (le_foldr_max hmem)).trans_le (le_max_left _ _)

theorem startCaseRound_eq_ok {value : PyValue} {roundId rootTaskId : String} {now : DateTime}
    {after : World}
    (hstart : startCaseRound value roundId rootTaskId now world = .ok (started, after)) :
    started.roundNumber = nextRoundNumber started.caseId world ∧ after.cases = world.cases ∧
      after.rounds.rows = world.rounds.rows ++ [recordOf started] := by
  rw [startCaseRound] at hstart
  obtain ⟨text, -, hstart⟩ := orRaise_bind_eq_ok hstart
  obtain ⟨case, -, hstart⟩ := bind_eq_ok hstart
  obtain ⟨_, -, hinsert⟩ := bind_eq_ok hstart
  rw [insertRound] at hinsert
  obtain ⟨tasks, -, hinsert⟩ := orRaise_bind_eq_ok hinsert
  obtain ⟨rounds, hrounds, hinsert⟩ := orRaise_bind_eq_ok hinsert
  obtain ⟨rfl, rfl⟩ := Prod.mk.inj (Except.ok.inj hinsert)
  exact ⟨rfl, rfl, (Table.insert?_eq_some_iff.mp hrounds).2.2⟩

/-- What a transaction of `start_case_round` leaves and answers. -/
theorem startCaseRound_cases (value : PyValue) (roundId rootTaskId : String) (now : DateTime)
    (world : World) :
    (perform world (.startCaseRound value roundId rootTaskId now) = world ∧
        startedRound? world (.startCaseRound value roundId rootTaskId now) = none) ∨
      ∃ started after, startCaseRound value roundId rootTaskId now world = .ok (started, after) ∧
        perform world (.startCaseRound value roundId rootTaskId now) = after ∧
          startedRound? world (.startCaseRound value roundId rootTaskId now) = some started := by
  rw [perform, operate, startedRound?]
  cases hstart : startCaseRound value roundId rootTaskId now world with
  | error error => exact Or.inl ⟨rfl, rfl⟩
  | ok result => exact Or.inr ⟨result.1, result.2, rfl, rfl, rfl⟩

theorem compactResults_cases (olderThanDays keepAncestorDepth limit : ℤ) (now : DateTime)
    (world : World) : ∃ tasks, perform world
      (.compactCompletedResults olderThanDays keepAncestorDepth limit now) = { world with tasks } := by
  rw [perform, operate]
  split
  · exact ⟨world.tasks, rfl⟩
  · exact ⟨_, rfl⟩

/-- Only the registration of a case changes the cases. -/
theorem HasRegisteredCases.perform (hregistered : HasRegisteredCases world)
    (hpermits : InsertsRegistered world statement) :
    HasRegisteredCases (perform world statement) := by
  intro stored hstored
  cases statement with
  | history statement =>
      cases statement with
      | queue statement =>
          cases statement with
          | cases statement =>
              cases statement with
              | selectPayload wanted => exact hregistered stored hstored
              | insertOrIgnore row =>
                  change stored ∈ ((world.cases.insert? row).getD world.cases).rows at hstored
                  cases hinsert : world.cases.insert? row with
                  | none =>
                      rw [hinsert] at hstored
                      exact hregistered stored hstored
                  | some after =>
                      rw [hinsert] at hstored
                      rcases (Table.mem_insert? hinsert).mp hstored with hold | rfl
                      · exact hregistered stored hold
                      · exact hpermits
          | insertTask row =>
              change stored ∈ (TaskQueue.execute (.insertTask row) world).2.cases.rows at hstored
              rw [TaskQueue.execute] at hstored
              split at hstored
              · exact hregistered stored hstored
              · exact hregistered stored hstored
          | _ => exact hregistered stored hstored
      | _ => exact hregistered stored hstored
  | startCaseRound value roundId rootTaskId now =>
      rcases startCaseRound_cases value roundId rootTaskId now world with
        ⟨hsame, -⟩ | ⟨started, after, hstart, hafter, -⟩
      · rw [hsame] at hstored
        exact hregistered stored hstored
      · rw [hafter, (startCaseRound_eq_ok hstart).2.1] at hstored
        exact hregistered stored hstored
  | compactCompletedResults olderThanDays keepAncestorDepth limit now =>
      obtain ⟨tasks, hafter⟩ :=
        compactResults_cases olderThanDays keepAncestorDepth limit now world
      rw [hafter] at hstored
      exact hregistered stored hstored
  | _ => exact hregistered stored hstored

/-- A statement records the round that it starts, and no other changes the records. -/
theorem rounds_perform (world : World) (statement : Statement) :
    (perform world statement).rounds.rows =
      world.rounds.rows ++ (startedRound? world statement).toList.map recordOf := by
  have hnone : world.rounds.rows = world.rounds.rows ++ [] := (List.append_nil _).symm
  cases statement with
  | history statement =>
      cases statement with
      | queue statement =>
          cases statement with
          | insertTask row =>
              change (TaskQueue.execute (.insertTask row) world).2.rounds.rows = _
              rw [TaskQueue.execute]
              split
              · exact hnone
              · exact hnone
          | _ => exact hnone
      | _ => exact hnone
  | startCaseRound value roundId rootTaskId now =>
      rcases startCaseRound_cases value roundId rootTaskId now world with
        ⟨hsame, hrefused⟩ | ⟨started, after, hstart, hafter, hstarted⟩
      · rw [hsame, hrefused]
        exact hnone
      · rw [hafter, hstarted]
        exact (startCaseRound_eq_ok hstart).2.2
  | compactCompletedResults olderThanDays keepAncestorDepth limit now =>
      obtain ⟨tasks, hafter⟩ :=
        compactResults_cases olderThanDays keepAncestorDepth limit now world
      rw [hafter]
      exact hnone
  | _ => exact hnone

theorem startedRound?_eq_some (hstarted : startedRound? world statement = some started) :
    started.roundNumber = nextRoundNumber started.caseId world := by
  cases statement with
  | startCaseRound value roundId rootTaskId now =>
      rcases startCaseRound_cases value roundId rootTaskId now world with
        ⟨-, hrefused⟩ | ⟨other, after, hstart, -, hother⟩
      · rw [hrefused] at hstarted
        cases hstarted
      · rw [hother, Option.some.injEq] at hstarted
        rw [← hstarted]
        exact (startCaseRound_eq_ok hstart).1
  | _ => cases hstarted

theorem IsRecorded.perform (hrecorded : IsRecorded caseId number world) :
    IsRecorded caseId number (perform world statement) := by
  obtain ⟨round, hround, hvalues⟩ := hrecorded
  refine ⟨round, ?_, hvalues⟩
  rw [rounds_perform]
  exact List.mem_append_left _ hround

theorem isRecorded_started (hstarted : startedRound? world statement = some started) :
    IsRecorded started.caseId started.roundNumber (perform world statement) := by
  refine ⟨recordOf started, ?_, rfl, rfl⟩
  rw [rounds_perform, hstarted]
  exact List.mem_append_right _ List.mem_cons_self

theorem assignedNumbers_cons (caseId : String) (world : World) (statement : Statement)
    (rest : List Statement) : assignedNumbers caseId world (statement :: rest) =
      ((startedRound? world statement).toList.filter (·.caseId = caseId)).map
        StartedRound.roundNumber ++
          assignedNumbers caseId (perform world statement) rest := by
  rw [assignedNumbers, startedRounds, List.filter_append, List.map_append]
  rfl

/-- Every number that a run assigns is greater than those recorded before. -/
theorem lt_of_isRecorded {statements : List Statement} (hrecorded : IsRecorded caseId number world)
    {later : ℕ} (hlater : later ∈ assignedNumbers caseId world statements) : number < later := by
  induction statements generalizing world with
  | nil => cases hlater
  | cons statement rest ih =>
      rw [assignedNumbers_cons, List.mem_append] at hlater
      rcases hlater with hfirst | hrest
      · obtain ⟨started, hmem, rfl⟩ := List.mem_map.mp hfirst
        obtain ⟨hstarted, hcase⟩ := List.mem_filter.mp hmem
        rw [Option.mem_toList] at hstarted
        rw [decide_eq_true_eq] at hcase
        rw [startedRound?_eq_some hstarted, hcase]
        exact lt_nextRoundNumber hrecorded
      · exact ih hrecorded.perform hrest

/-- The numbers of the rounds of one case increase. -/
theorem pairwise_assignedNumbers (caseId : String) (world : World) (statements : List Statement) :
    (assignedNumbers caseId world statements).Pairwise (· < ·) := by
  induction statements generalizing world with
  | nil => exact List.Pairwise.nil
  | cons statement rest ih =>
      rw [assignedNumbers_cons]
      cases hstarted : startedRound? world statement with
      | none => exact ih _
      | some started =>
          by_cases hcase : started.caseId = caseId
          · have hrecorded := isRecorded_started hstarted
            rw [hcase] at hrecorded
            simp only [Option.toList_some, List.filter_cons, hcase, decide_true, if_true,
              List.filter_nil, List.map_cons, List.map_nil, List.singleton_append,
              List.pairwise_cons]
            exact ⟨fun later hlater => lt_of_isRecorded hrecorded hlater, ih _⟩
          · simpa [hcase] using ih _

/-- In every reachable store the diagnosis of a case and the starter of its rounds
agree, unless the case is an idle draft, and the numbers of its rounds increase. -/
theorem agrees_run_iff {start : World} {statements : List Statement}
    (hregistered : HasRegisteredCases start)
    (hpermitted : Permitted perform InsertsRegistered start statements) :
    (∀ value roundId rootTaskId now,
      IsFresh roundId rootTaskId (run perform start statements) →
        ((ReportsIdle value (run perform start statements) ↔
            CanStart value roundId rootTaskId now (run perform start statements)) ↔
          ¬IsIdleDraft value (run perform start statements))) ∧
      ∀ caseId, (assignedNumbers caseId start statements).Pairwise (· < ·) := by
  have hreached : HasRegisteredCases (run perform start statements) :=
    hpermitted.invariant HasRegisteredCases hregistered fun _ _ hworld hpermits =>
      hworld.perform hpermits
  exact ⟨fun _ _ _ _ hfresh => agrees_iff hreached hfresh,
    fun caseId => pairwise_assignedNumbers caseId start statements⟩

end Runs

/-! ## Concrete runs -/

namespace Sample

def start : World := World.empty Table.empty []

def register (case : ResearchCase) : Statement :=
  .history (.queue (.cases (.insertOrIgnore (ResearchCaseRegistry.rowOf case))))

/-- A case begins a round, whose task is worked on and deleted before the next one. -/
def twoRounds : List Statement :=
  [register ResearchCaseRegistry.Sample.first,
    .startCaseRound (.text "case-1") "round-1" "task-1" TaskQueue.Sample.noon,
    .history (.queue (.claimNext "worker-1" none TaskQueue.Sample.noon.isoText)),
    .history (.queue (.report "task-1" .completed (some "done") TaskQueue.Sample.noon.isoText)),
    .history (.deleteRows ["task-1"]),
    .startCaseRound (.text "case-1") "round-2" "task-2" TaskQueue.Sample.later]

def draft : ResearchCase :=
  ⟨{ ResearchCaseRegistry.Sample.fields "case-1" "first" with status := .draft },
    by decide +kernel⟩

/-- The store after the registration of the draft. -/
def drafted : World := perform start (register draft)

end Sample

theorem hasRegisteredCases_start : HasRegisteredCases Sample.start := by
  intro row hrow
  cases hrow

theorem agrees_twoRounds :
    (∀ value roundId rootTaskId now,
      IsFresh roundId rootTaskId (run perform Sample.start Sample.twoRounds) →
        ((ReportsIdle value (run perform Sample.start Sample.twoRounds) ↔
            CanStart value roundId rootTaskId now (run perform Sample.start Sample.twoRounds)) ↔
          ¬IsIdleDraft value (run perform Sample.start Sample.twoRounds))) ∧
      ∀ caseId, (assignedNumbers caseId Sample.start Sample.twoRounds).Pairwise (· < ·) :=
  agrees_run_iff hasRegisteredCases_start
    ⟨⟨_, rfl⟩, trivial, trivial, trivial, trivial, trivial, trivial⟩

theorem isIdleDraft_drafted : IsIdleDraft (.text "case-1") Sample.drafted := by
  refine ⟨"case-1", Sample.draft, rfl, ?_, rfl, ?_, ?_⟩
  · exact ResearchCaseRegistry.getResearchCase_of_payload? Sample.draft rfl
  · intro row hrow
    cases hrow
  · intro review hreview
    cases hreview

theorem not_agrees_drafted :
    ¬∀ (start : World) (statements : List Statement), HasRegisteredCases start →
      Permitted perform InsertsRegistered start statements →
        (∀ value roundId rootTaskId now,
          IsFresh roundId rootTaskId (run perform start statements) →
            (ReportsIdle value (run perform start statements) ↔
              CanStart value roundId rootTaskId now (run perform start statements))) ∧
          ∀ caseId, (assignedNumbers caseId start statements).Pairwise (· < ·) := by
  intro hall
  have hpermitted : Permitted perform InsertsRegistered Sample.start
      [Sample.register Sample.draft] := ⟨⟨_, rfl⟩, trivial⟩
  have hfresh : IsFresh "round-1" "task-1" Sample.drafted := by
    refine ⟨rfl, ?_⟩
    intro round hround
    cases hround
  have hregistered : HasRegisteredCases Sample.drafted :=
    hasRegisteredCases_start.perform ⟨_, rfl⟩
  have hagrees := (hall Sample.start _ hasRegisteredCases_start hpermitted).1 (.text "case-1")
    "round-1" "task-1" TaskQueue.Sample.noon hfresh
  exact (agrees_iff hregistered hfresh).mp hagrees isIdleDraft_drafted

end AegisForge.Shared.TaskQueue.CaseDiagnosis
