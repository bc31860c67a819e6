import AegisForge.Core.Closure
import AegisForge.Core.Ranking
import AegisForge.Shared.PlannerWork
import AegisForge.Shared.RoundTransparency

/-!
# The verdict of a round

When the branch of a root task is finished, the master reads the verdict of the round
from the root and its children and completes the round with it.  The validator may be
deeper in the branch, and the table of rounds has a word less than the reader.
-/

namespace AegisForge.Orchestrator.RoundVerdict

open AegisForge.Core AegisForge.Shared AegisForge.Shared.TaskQueue AegisForge.Shared.RoundTransparency

/-! ## Branches -/

/-- A task and the task below it. -/
def childEdges (tasks : TaskTable) : List (String × String) :=
  tasks.rows.filterMap fun row => row.parentTaskId.map fun parentId => (parentId, row.id)

/-- The recursive `descendants` of a task. -/
def descendantIds (tasks : TaskTable) (rootId : String) : List String :=
  Closure.within (childEdges tasks) (childEdges tasks).length [rootId]

/-- `MasterOrchestrator._has_active_descendants`. -/
def hasActiveDescendants (tasks : TaskTable) (rootId : String) : Bool :=
  tasks.rows.any fun row => row.id ∈ descendantIds tasks rootId && !isFinished row

/-- `WHERE id = ? OR parent_task_id = ?`. -/
def isNear (rootId : String) (row : TaskRow) : Bool :=
  row.id = rootId || row.parentTaskId = some rootId

/-- The tasks of a branch at any depth. -/
def branchRows (tasks : TaskTable) (rootId : String) : List TaskRow :=
  tasks.rows.filter fun row => row.id = rootId || row.id ∈ descendantIds tasks rootId

/-! ## Verdicts -/

/-- `ORDER BY created_at DESC`. -/
def createdBefore (later earlier : TaskRow) : Prop := earlier.createdAt ≤ later.createdAt

instance : DecidableRel createdBefore := fun later earlier =>
  inferInstanceAs (Decidable (earlier.createdAt ≤ later.createdAt))

/-- What the planner reads of a stored result, if that does not raise. -/
abbrev ParseResult := String → Option Json

/-- The `research_validation` object of a task's result. -/
def validationOf (parseResult : ParseResult) (row : TaskRow) : Option Json :=
  ((row.result.filter (· ≠ "")).bind parseResult).bind fun result =>
    (result.get? "research_validation").filter Json.isObject

/-- `REPRODUCED, NOT_REPRODUCED, INCONCLUSIVE, OUT_OF_SCOPE`. -/
def allowed : List String := ["REPRODUCED", "NOT_REPRODUCED", "INCONCLUSIVE", "OUT_OF_SCOPE"]

/-- `verdict.strip().upper().replace("-", "_").replace(" ", "_")`. -/
def normalized (verdict : String) : String :=
  String.ofList ((upper (strip verdict).toList).map fun character =>
    if character = '-' ∨ character = ' ' then '_' else character)

/-- The word of a `research_validation` object. -/
def verdictWord (validation : Json) : String :=
  let verdict := validation.get "verdict"
  if verdict.isTruthy = false then "INCONCLUSIVE"
  else match verdict.text? with
    | none => "INCONCLUSIVE"
    | some verdict => if normalized verdict ∈ allowed then normalized verdict else "INCONCLUSIVE"

/-- The word of a task with such an object. -/
def wordOf (parseResult : ParseResult) (row : TaskRow) : String :=
  (validationOf parseResult row).elim "INCONCLUSIVE" verdictWord

/-- The newest task whose result has a `research_validation` object. -/
def newestValidated (parseResult : ParseResult) (rows : List TaskRow) : Option TaskRow :=
  (rows.insertionSort createdBefore).find? fun row => (validationOf parseResult row).isSome

/-- `MasterOrchestrator._round_verdict`. -/
def roundVerdict (parseResult : ParseResult) (tasks : TaskTable) (rootId : String) : String :=
  (newestValidated parseResult (tasks.rows.filter (isNear rootId))).elim "INCONCLUSIVE"
    (wordOf parseResult)

/-- The verdict of the branch: that of its newest validated task, at whatever depth. -/
def branchVerdict (parseResult : ParseResult) (tasks : TaskTable) (rootId : String) : String :=
  (newestValidated parseResult (branchRows tasks rootId)).elim "INCONCLUSIVE"
    (wordOf parseResult)

/-! ## Closing a round -/

/-- Whether `bootstrap` completes the round of a root: the root is completed and decided,
and nothing below it is pending or running. -/
def isTerminal (tasks : TaskTable) (rootId : String) : Bool :=
  (tasks.lookup rootId).any fun root =>
    root.status = .completed && !hasActiveDescendants tasks rootId && root.plannerDecision.isSome

/-- The completion of a round by `bootstrap`. -/
def completeBranch (parseResult : ParseResult) (tasks : TaskTable) (rootId caseId roundId : String)
    (terminalAt : DateTime) (rounds : RoundTable) : Bool × RoundTable :=
  completeRound (.text caseId) (.text roundId) (.text terminalAt.isoText)
    (.text (roundVerdict parseResult tasks rootId)) rounds

/-- The word that is stored. -/
def word : Verdict → String
  | .reproduced => "REPRODUCED"
  | .notReproduced => "NOT_REPRODUCED"
  | .inconclusive => "INCONCLUSIVE"

/-- The round that `bootstrap` completes has the verdict of the branch, and it is the word
that was read. -/
def ReportsBranchVerdict (parseResult : ParseResult) (tasks : TaskTable) (rootId : String) : Prop :=
  isTerminal tasks rootId = true →
    ∀ caseId roundId terminalAt rounds after,
      completeBranch parseResult tasks rootId caseId roundId terminalAt rounds = (true, after) →
        ∃ row, after.lookup (caseId, roundId) = some row ∧ row.status = .completed ∧
          row.verdict.map word = some (branchVerdict parseResult tasks rootId) ∧
          row.verdict.map word = some (roundVerdict parseResult tasks rootId)

/-- The newest validated task of the branch is the root or a child of it, or has the word of
the newest validated one among these; and that word is not `OUT_OF_SCOPE`. -/
def HasNearVerdict (parseResult : ParseResult) (tasks : TaskTable) (rootId : String) : Prop :=
  ∀ row, newestValidated parseResult (branchRows tasks rootId) = some row →
    wordOf parseResult row ≠ "OUT_OF_SCOPE" ∧
      (isNear rootId row = true ∨
        wordOf parseResult row =
          (newestValidated parseResult (tasks.rows.filter (isNear rootId))).elim "INCONCLUSIVE"
            (wordOf parseResult))

/-! ## Tasks of a branch -/

section Branch

variable {tasks : TaskTable} {rootId : String} {row : TaskRow}

theorem edge_childEdges_iff {parentId taskId : String} :
    Closure.Edge (childEdges tasks) parentId taskId ↔
      ∃ row ∈ tasks.rows, row.id = taskId ∧ row.parentTaskId = some parentId := by
  simp only [Closure.Edge, childEdges, List.mem_filterMap, Option.map_eq_some_iff, Prod.mk.injEq]
  constructor
  · rintro ⟨row, hrow, parent, hparent, rfl, rfl⟩
    exact ⟨row, hrow, rfl, hparent⟩
  · rintro ⟨row, hrow, rfl, hparent⟩
    exact ⟨row, hrow, parentId, hparent, rfl, rfl⟩

theorem isNear_mem_branch (hrow : row ∈ tasks.rows) (hnear : isNear rootId row = true) :
    (decide (row.id = rootId) || decide (row.id ∈ descendantIds tasks rootId)) = true := by
  rw [isNear, Bool.or_eq_true, decide_eq_true_eq, decide_eq_true_eq] at hnear
  rw [Bool.or_eq_true, decide_eq_true_eq, decide_eq_true_eq]
  rcases hnear with hroot | hchild
  · exact Or.inl hroot
  · refine Or.inr ((Closure.mem_within_iff le_rfl).mpr ⟨rootId, List.mem_singleton_self rootId, ?_⟩)
    exact Relation.TransGen.single (edge_childEdges_iff.mpr ⟨row, hrow, rfl, hchild⟩)

theorem filter_isNear_branchRows (tasks : TaskTable) (rootId : String) :
    (branchRows tasks rootId).filter (isNear rootId) = tasks.rows.filter (isNear rootId) := by
  rw [branchRows, List.filter_filter]
  apply List.filter_congr
  intro row hrow
  cases hnear : isNear rootId row with
  | false => rfl
  | true => rw [isNear_mem_branch hrow hnear, Bool.and_true]

end Branch

/-! ## The newest task of a kind -/

instance : IsTrans TaskRow createdBefore := ⟨fun _ _ _ hfirst hsecond => hsecond.trans hfirst⟩

instance : Std.Total createdBefore := ⟨fun first second => le_total second.createdAt first.createdAt⟩

section Newest

variable {parseResult : ParseResult} {tasks : TaskTable} {rootId : String}

/-- If the newest one of the branch is near the root, it is the newest one near the root. -/
theorem newestValidated_near {row : TaskRow}
    (hnewest : newestValidated parseResult (branchRows tasks rootId) = some row)
    (hnear : isNear rootId row = true) :
    newestValidated parseResult (tasks.rows.filter (isNear rootId)) = some row := by
  rw [newestValidated, ← filter_isNear_branchRows, ← filter_insertionSort]
  rw [newestValidated, List.find?_eq_some_iff_append] at hnewest
  obtain ⟨hvalidated, before, after, hsplit, hbefore⟩ := hnewest
  rw [List.find?_eq_some_iff_append]
  refine ⟨hvalidated, before.filter (isNear rootId), after.filter (isNear rootId), ?_, ?_⟩
  · rw [hsplit, List.filter_append, List.filter_cons_of_pos hnear]
  · intro other hother
    exact hbefore other (List.mem_filter.mp hother).1

/-- Where nothing of the branch is validated, nothing near the root is. -/
theorem newestValidated_near_none
    (hnone : newestValidated parseResult (branchRows tasks rootId) = none) :
    newestValidated parseResult (tasks.rows.filter (isNear rootId)) = none := by
  rw [newestValidated, List.find?_eq_none] at hnone ⊢
  intro row hrow
  rw [List.mem_insertionSort, ← filter_isNear_branchRows] at hrow
  exact hnone row ((List.mem_insertionSort _).mpr (List.mem_filter.mp hrow).1)

theorem verdictWord_mem (validation : Json) : verdictWord validation ∈ allowed := by
  rw [verdictWord]
  split
  · decide
  · split
    · decide
    · split
      case isTrue hallowed => exact hallowed
      case isFalse => decide

theorem wordOf_mem (parseResult : ParseResult) (row : TaskRow) :
    wordOf parseResult row ∈ allowed := by
  rw [wordOf]
  cases validationOf parseResult row with
  | none => exact List.mem_of_elem_eq_true rfl
  | some validation => exact verdictWord_mem validation

end Newest

/-! ## What is stored -/

/-- The table keeps every word of the reader but one. -/
theorem word_normalizeVerdict {verdict : String} (hallowed : verdict ∈ allowed) :
    word (normalizeVerdict (.text verdict)) =
      if verdict = "OUT_OF_SCOPE" then "INCONCLUSIVE" else verdict := by
  simp only [allowed, List.mem_cons, List.not_mem_nil, or_false] at hallowed
  rcases hallowed with rfl | rfl | rfl | rfl <;> decide +kernel

section Stored

variable {parseResult : ParseResult} {tasks : TaskTable} {rootId caseId roundId : String}
variable {terminalAt : DateTime} {rounds after : RoundTable}

theorem lookup_completeBranch
    (hcompletes : completeBranch parseResult tasks rootId caseId roundId terminalAt rounds =
      (true, after)) :
    ∃ row, after.lookup (caseId, roundId) = some row ∧ row.status = .completed ∧
      row.verdict = some (normalizeVerdict (.text (roundVerdict parseResult tasks rootId))) := by
  rw [completeBranch, completeRound] at hcompletes
  split at hcompletes
  case h_1 filledCase filledRound completedAt hcase hround hcompleted =>
    have hcaseId : caseId = filledCase :=
      Option.some.inj (Option.filter_eq_some_iff.mp hcase).1
    have hroundId : roundId = filledRound :=
      Option.some.inj (Option.filter_eq_some_iff.mp hround).1
    subst hcaseId hroundId
    have hupdated := congrArg Prod.fst hcompletes
    obtain ⟨row, hrow, hactive⟩ := Table.updateWhere_eq_true_iff.mp hupdated
    have hafter := congrArg Prod.snd hcompletes
    change _ = after at hafter
    rw [← hafter, Table.lookup_updateWhere, hrow]
    exact ⟨row.complete completedAt _, by simp [hactive], rfl, rfl⟩
  case h_2 => cases hcompletes

end Stored

/-! ## When the verdict is that of the branch -/

namespace Sample

/-- A table with one round that is open. -/
def openRound : RoundTable :=
  insertOrIgnore
    (RoundRow.opened "round-1" "case-1" "source_pattern" "2026-05-01T12:00:00+00:00"
      "2026-07-30T12:00:00+00:00") .empty

end Sample

section Reports

variable {parseResult : ParseResult} {tasks : TaskTable} {rootId : String}

theorem hasNearVerdict_iff :
    HasNearVerdict parseResult tasks rootId ↔
      branchVerdict parseResult tasks rootId = roundVerdict parseResult tasks rootId ∧
        roundVerdict parseResult tasks rootId ≠ "OUT_OF_SCOPE" := by
  rw [HasNearVerdict, branchVerdict, roundVerdict]
  cases hnewest : newestValidated parseResult (branchRows tasks rootId) with
  | none =>
      rw [newestValidated_near_none hnewest]
      simp
  | some row =>
      simp only [Option.some.injEq, forall_eq', Option.elim_some]
      constructor
      · rintro ⟨hscope, hnear | hsame⟩
        · rw [newestValidated_near hnewest hnear]
          exact ⟨rfl, hscope⟩
        · exact ⟨hsame, hsame ▸ hscope⟩
      · rintro ⟨hsame, hscope⟩
        exact ⟨hsame ▸ hscope, Or.inr hsame⟩

theorem roundVerdict_mem (parseResult : ParseResult) (tasks : TaskTable) (rootId : String) :
    roundVerdict parseResult tasks rootId ∈ allowed := by
  rw [roundVerdict]
  cases newestValidated parseResult (tasks.rows.filter (isNear rootId)) with
  | none => exact List.mem_of_elem_eq_true rfl
  | some row => exact wordOf_mem parseResult row

/-- A completed round reports the verdict of its branch if and only if the newest verdict of
the branch is found near the root and is not `OUT_OF_SCOPE`. -/
theorem reportsBranchVerdict_iff (parseResult : ParseResult) (tasks : TaskTable)
    (rootId : String) :
    ReportsBranchVerdict parseResult tasks rootId ↔
      (isTerminal tasks rootId = true → HasNearVerdict parseResult tasks rootId) := by
  rw [ReportsBranchVerdict]
  refine forall_congr' fun hterminal => ?_
  have hword := word_normalizeVerdict (roundVerdict_mem parseResult tasks rootId)
  rw [hasNearVerdict_iff]
  constructor
  · intro hreports
    have hcompletes : (completeBranch parseResult tasks rootId "case-1" "round-1" TaskQueue.Sample.noon
        Sample.openRound).1 = true := rfl
    obtain ⟨row, hrow, -, hbranch, hread⟩ := hreports "case-1" "round-1" TaskQueue.Sample.noon
      Sample.openRound _ (Prod.ext hcompletes rfl)
    obtain ⟨stored, hstored, -, hverdict⟩ := lookup_completeBranch (Prod.ext hcompletes rfl)
    obtain rfl : row = stored := Option.some.inj (hrow.symm.trans hstored)
    rw [hverdict, Option.map_some, hword, Option.some.injEq] at hbranch hread
    refine ⟨hbranch.symm.trans hread, fun hscope => ?_⟩
    rw [if_pos hscope, hscope] at hread
    exact absurd hread (by decide)
  · rintro ⟨hsame, hscope⟩ caseId roundId terminalAt rounds after hcompletes
    obtain ⟨row, hrow, hstatus, hverdict⟩ := lookup_completeBranch hcompletes
    rw [if_neg hscope] at hword
    refine ⟨row, hrow, hstatus, ?_, ?_⟩
    · rw [hverdict, Option.map_some, hword, hsame]
    · rw [hverdict, Option.map_some, hword]

end Reports

/-! ## The route of four stages -/

namespace Sample

/-- A task is added below another one, completed and decided. -/
def stage (taskId : String) (parentId : Option String) (result decision : String) :
    List PlannedOperation :=
  [.queue (.call (.add (TaskQueue.Sample.task taskId parentId false))),
    .queue (.call (.claim "worker-1" none TaskQueue.Sample.noon)),
    .queue (.call (.finish "worker-1" taskId (some (.ok result)) TaskQueue.Sample.noon)),
    .markPlannerDecision taskId (some decision)]

/-- Sources, analysis, lab and validation. -/
def route : List PlannedOperation :=
  stage "root" none "\x7b\x7d" "CONTINUE" ++ stage "analysis" (some "root") "\x7b\x7d" "REFINE" ++
    stage "lab" (some "analysis") "\x7b\x7d" "VERIFY" ++
    stage "validation" (some "lab")
      "\x7b\"research_validation\":\x7b\"verdict\":\"REPRODUCED\"\x7d\x7d" "COMPLETE"

end Sample

theorem not_reportsBranchVerdict_route :
    ¬∀ operations, Permitted perform PerformsUnused (World.empty Table.empty []) operations →
      ∀ parseResult rootId, ReportsBranchVerdict parseResult
        (run perform (World.empty Table.empty []) operations).tasks rootId := by
  intro hall
  have hreports := hall Sample.route (by decide +kernel) (fun raw => Json.loads raw.toList) "root"
    (by decide +kernel)
  obtain ⟨row, -, -, hbranch, hread⟩ := hreports "case-1" "round-1" TaskQueue.Sample.noon
    Sample.openRound _ (Prod.ext rfl rfl)
  have hsame := Option.some.inj (hbranch.symm.trans hread)
  revert hsame
  decide +kernel

end AegisForge.Orchestrator.RoundVerdict
