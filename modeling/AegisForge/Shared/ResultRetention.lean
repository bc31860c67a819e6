import AegisForge.Shared.PlannerWork
import AegisForge.Shared.QueueEligibility

/-!
# Results that are still needed

A compaction of the results keeps those of the frontier and of its ancestors up to
a distance.  A failed task is no part of the frontier although `requeue_failed`
reads the result of its parent, and at distance zero neither are the parents of
pending tasks.
-/

namespace AegisForge.Shared.TaskQueue

open AegisForge.Core AegisForge.Concurrency

variable (tasks : TaskTable)

/-! ## What a compaction of the results should keep -/

/-- The result of a task, if it is stored. -/
def resultOf (taskId : String) : Option String := (tasks.lookup taskId).bind TaskRow.result

/-- The claimable tasks, the results that live tasks were given and the failed tasks
that can be requeued are as before. -/
structure KeepsBehaviour (world : World) (after : TaskTable) : Prop where
  claimable : ∀ role, claimableIds role after = claimableIds role world.tasks
  parents : ∀ child ∈ world.tasks.rows, (child.isPending || child.isRunning) = true →
    ∀ parentId, child.parentTaskId = some parentId →
      resultOf after parentId = resultOf world.tasks parentId
  requeues : ∀ taskId maxRetries,
    ((requeueFailed taskId maxRetries).run execute world).1 = .ok true →
      ((requeueFailed taskId maxRetries).run execute { world with tasks := after }).1 = .ok true

/-! ## What it drops -/

/-- The ancestor of a task at a distance. -/
def ancestorAt : ℕ → String → Option String
  | 0, taskId => some taskId
  | distance + 1, taskId =>
      (tasks.lookup taskId).bind fun row => row.parentTaskId.bind (ancestorAt distance)

/-- The task is in the frontier or an ancestor, up to a distance, of a task that is. -/
def isNeeded (keepAncestorDepth : ℕ) (taskId : String) : Bool :=
  (List.range (keepAncestorDepth + 1)).any fun distance =>
    tasks.rows.any fun row => isFrontier tasks row && ancestorAt tasks distance row.id = some taskId

/-- A completed task, finished before the cutoff, with a result that is not needed. -/
def isSpent (cutoff : String) (keepAncestorDepth : ℕ) (row : TaskRow) : Bool :=
  row.status = .completed && row.result.isSome && row.finishedAt.any (· < cutoff) &&
    !isNeeded tasks keepAncestorDepth row.id

/-- A spent task before which fewer than `limit` spent ones are stored. -/
def IsDropped (cutoff : String) (keepAncestorDepth limit : ℕ) (row : TaskRow) : Prop :=
  isSpent tasks cutoff keepAncestorDepth row = true ∧
    (storedBefore tasks row).countP (isSpent tasks cutoff keepAncestorDepth) < limit

/-- The children of the dropped tasks are completed; those of a task with the empty
id may have failed, since no requeue looks their parent up. -/
def NoneWaitsForDropped (cutoff : String) (keepAncestorDepth limit : ℕ) : Prop :=
  ∀ parent ∈ tasks.rows, IsDropped tasks cutoff keepAncestorDepth limit parent →
    ∀ child ∈ tasks.rows, child.parentTaskId = some parent.id →
      child.status = .completed ∨ child.status = .failed ∧ parent.id = ""

variable {tasks}

/-! ## Ancestors up to a distance -/

section Ancestors

theorem mem_ancestors {depth : ℕ} {taskIds : List String} {taskId : String} :
    taskId ∈ ancestors tasks depth taskIds ↔
      ∃ distance < depth, ∃ start ∈ taskIds, ancestorAt tasks (distance + 1) start = some taskId := by
  induction depth generalizing taskIds with
  | zero => simp [ancestors]
  | succ depth ih =>
      have hparents : ∀ parentId, parentId ∈ parentsOf tasks taskIds ↔
          ∃ start ∈ taskIds, ancestorAt tasks 1 start = some parentId := by
        intro parentId
        rw [mem_parentsOf]
        constructor
        · rintro ⟨child, hchild, hid, hlink⟩
          refine ⟨child.id, hid, ?_⟩
          simp [ancestorAt, Table.lookup_of_mem hchild, hlink]
        · rintro ⟨start, hstart, hparent⟩
          obtain ⟨row, hrow, hparent⟩ := Option.bind_eq_some_iff.mp hparent
          have hlink : row.parentTaskId = some parentId := by
            simpa [ancestorAt] using hparent
          rw [← Table.key_of_lookup hrow] at hstart
          exact ⟨row, Table.mem_of_lookup hrow, hstart, hlink⟩
      have hstep : ∀ distance start, ancestorAt tasks (distance + 1) start =
          (ancestorAt tasks 1 start).bind (ancestorAt tasks distance) := by
        intro distance start
        rw [ancestorAt, ancestorAt, Option.bind_assoc]
        congr 1
        funext row
        cases row.parentTaskId <;> rfl
      rw [ancestors, List.mem_append, hparents, ih]
      constructor
      · rintro (⟨start, hstart, hparent⟩ | ⟨distance, hdistance, parentId, hparent, hdeeper⟩)
        · exact ⟨0, Nat.succ_pos depth, start, hstart, hparent⟩
        · obtain ⟨start, hstart, hfirst⟩ := (hparents parentId).mp hparent
          refine ⟨distance + 1, Nat.succ_lt_succ hdistance, start, hstart, ?_⟩
          rw [hstep, hfirst]
          exact hdeeper
      · rintro ⟨distance, hdistance, start, hstart, hancestor⟩
        cases distance with
        | zero => exact Or.inl ⟨start, hstart, hancestor⟩
        | succ distance =>
            rw [hstep] at hancestor
            obtain ⟨parentId, hfirst, hdeeper⟩ := Option.bind_eq_some_iff.mp hancestor
            exact Or.inr ⟨distance, Nat.lt_of_succ_lt_succ hdistance, parentId,
              (hparents parentId).mpr ⟨start, hstart, hfirst⟩, hdeeper⟩

theorem mem_keptResults {keepAncestorDepth : ℕ} {taskId : String} :
    taskId ∈ keptResults tasks keepAncestorDepth ↔
      isNeeded tasks keepAncestorDepth taskId = true := by
  have hfrontier : ∀ start, start ∈ idsOf (tasks.rows.filter (isFrontier tasks)) ↔
      ∃ row ∈ tasks.rows, isFrontier tasks row = true ∧ row.id = start := by
    intro start
    simp [idsOf, and_assoc]
  have hneeded : isNeeded tasks keepAncestorDepth taskId = true ↔
      ∃ distance < keepAncestorDepth + 1, ∃ start ∈ idsOf (tasks.rows.filter (isFrontier tasks)),
        ancestorAt tasks distance start = some taskId := by
    simp only [isNeeded, List.any_eq_true, List.mem_range, Bool.and_eq_true, decide_eq_true_eq,
      hfrontier]
    constructor
    · rintro ⟨distance, hdistance, row, hrow, hopen, hancestor⟩
      exact ⟨distance, hdistance, row.id, ⟨row, hrow, hopen, rfl⟩, hancestor⟩
    · rintro ⟨distance, hdistance, start, ⟨row, hrow, hopen, rfl⟩, hancestor⟩
      exact ⟨distance, hdistance, row, hrow, hopen, hancestor⟩
  rw [keptResults, List.mem_append, mem_ancestors, hneeded]
  constructor
  · rintro (hstart | ⟨distance, hdistance, start, hstart, hancestor⟩)
    · exact ⟨0, Nat.succ_pos _, taskId, hstart, rfl⟩
    · exact ⟨distance + 1, Nat.succ_lt_succ hdistance, start, hstart, hancestor⟩
  · rintro ⟨distance, hdistance, start, hstart, hancestor⟩
    cases distance with
    | zero =>
        rw [← Option.some.inj hancestor]
        exact Or.inl hstart
    | succ distance =>
        exact Or.inr ⟨distance, Nat.lt_of_succ_lt_succ hdistance, start, hstart, hancestor⟩

end Ancestors

/-! ## Dropped results -/

section Dropped

variable {cutoff : String} {keepAncestorDepth limit : ℕ} {row : TaskRow}

theorem mem_resultCandidates (hrow : row ∈ tasks.rows) :
    row.id ∈ resultCandidates tasks cutoff keepAncestorDepth limit ↔
      IsDropped tasks cutoff keepAncestorDepth limit row := by
  have hspent : (fun row : TaskRow => decide (row.status = .completed) && row.result.isSome &&
      row.finishedAt.any (· < cutoff) && decide (row.id ∉ keptResults tasks keepAncestorDepth)) =
        isSpent tasks cutoff keepAncestorDepth := by
    funext row
    simp [isSpent, mem_keptResults]
  rw [resultCandidates, hspent]
  exact mem_take_filter_rows hrow

theorem result_dropResult (taskIds : List String) (row : TaskRow) :
    (dropResult taskIds row).result = if row.id ∈ taskIds then none else row.result := by
  rw [dropResult]
  split <;> rfl

/-- A dropped result leaves the columns that decide about claims and requeues. -/
theorem dropResult_columns (taskIds : List String) (row : TaskRow) :
    ∃ result, dropResult taskIds row = { row with result } := by
  rw [dropResult]
  split
  · exact ⟨none, rfl⟩
  · exact ⟨row.result, rfl⟩

variable (tasks) in
/-- The table without the results of some tasks. -/
def dropResults (taskIds : List String) : TaskTable :=
  tasks.mapRows (dropResult taskIds) (id_dropResult taskIds) (id_dropResult taskIds)

theorem lookup_dropResults (taskIds : List String) (taskId : String) :
    (dropResults tasks taskIds).lookup taskId = (tasks.lookup taskId).map (dropResult taskIds) :=
  Table.lookup_mapRows tasks taskId

theorem resultOf_dropResults (taskIds : List String) (taskId : String) :
    resultOf (dropResults tasks taskIds) taskId =
      if taskId ∈ taskIds then none else resultOf tasks taskId := by
  rw [resultOf, resultOf, lookup_dropResults]
  cases hlookup : tasks.lookup taskId with
  | none => simp
  | some row => simp [result_dropResult, Table.key_of_lookup hlookup]

end Dropped

/-! ## Requeues -/

/-- The parent of the failed task, if it has one, lets it be tried again. -/
def MayRequeue (tasks : TaskTable) (maxRetries : ℤ) (row : TaskRow) : Prop :=
  row.status = .failed ∧ (row.retryCount : ℤ) < maxRetries ∧
    ∀ parentId, row.parentTaskId = some parentId → parentId ≠ "" →
      parentAllows row.allowFailedParent
        ((tasks.lookup parentId).map fun parent => (parent.status, parent.result)) = true

section Requeues

variable {taskId : String} {maxRetries : ℤ} {world : World} {row : TaskRow}

theorem requeue_of_isFailed (hlookup : world.tasks.lookup taskId = some row)
    (hfailed : row.status = .failed) :
    ((send (.requeue taskId)).run execute world).1 = (.ok true : Except Raised Bool) := by
  have hupdated : (requeue taskId world.tasks).1 = true :=
    Table.updateWhere_eq_true_iff.mpr ⟨row, hlookup, decide_eq_true hfailed⟩
  exact congrArg Except.ok hupdated

theorem requeue_if_iff (hlookup : world.tasks.lookup taskId = some row)
    (hfailed : row.status = .failed) (allowed : Bool) :
    ((if allowed = true then send (.requeue taskId) else Program.done false :
      Program Statement.Reply Raised Bool).run execute world).1 = .ok true ↔ allowed = true := by
  cases allowed with
  | true => exact iff_of_true (requeue_of_isFailed hlookup hfailed) rfl
  | false =>
      exact iff_of_false (fun hreturned => Bool.false_ne_true (Except.ok.inj hreturned))
        Bool.false_ne_true

/-- When `requeue_failed` returns true. -/
theorem requeueFailed_run_iff :
    ((requeueFailed taskId maxRetries).run execute world).1 = .ok true ↔
      ∃ row, world.tasks.lookup taskId = some row ∧ MayRequeue world.tasks maxRetries row := by
  have hselect : (execute (.selectFailure taskId) world).1 =
      (world.tasks.lookup taskId).map fun row =>
        ⟨row.status, row.retryCount, row.parentTaskId, row.allowFailedParent⟩ := rfl
  rw [requeueFailed]
  change ((Program.bind (.done (execute (.selectFailure taskId) world).1) _).run execute
    world).1 = _ ↔ _
  rw [hselect]
  cases hlookup : world.tasks.lookup taskId with
  | none =>
      refine iff_of_false (fun hreturned => Bool.false_ne_true (Except.ok.inj hreturned)) ?_
      rintro ⟨row, hrow, -⟩
      cases hrow
  | some row =>
      simp only [Option.some.injEq, exists_eq_left']
      change (Program.run execute (if row.status ≠ .failed ∨ maxRetries ≤ (row.retryCount : ℤ)
        then _ else _) world).1 = _ ↔ _
      split
      case isTrue hrefused =>
        refine iff_of_false (fun hreturned => Bool.false_ne_true (Except.ok.inj hreturned)) ?_
        rintro ⟨hfailed, hcount, -⟩
        rcases hrefused with hstatus | hretries
        · exact hstatus hfailed
        · exact absurd hcount (not_lt.mpr hretries)
      case isFalse haccepted =>
        obtain ⟨hfailed, hcount⟩ := not_or.mp haccepted
        have hfailed : row.status = .failed := not_not.mp hfailed
        rw [MayRequeue, and_iff_right hfailed, and_iff_right (not_le.mp hcount)]
        cases hparent : row.parentTaskId.filter (· ≠ "") with
        | none =>
            refine iff_of_true (requeue_of_isFailed hlookup hfailed) fun parentId hlink hnamed => ?_
            rw [hlink, Option.filter_some, if_pos (decide_eq_true hnamed)] at hparent
            cases hparent
        | some parentId =>
            obtain ⟨hlink, hnamed⟩ := Option.filter_eq_some_iff.mp hparent
            have hnamed : parentId ≠ "" := of_decide_eq_true hnamed
            simp only [hlink, Option.some.injEq, forall_eq']
            rw [forall_prop_of_true hnamed]
            exact requeue_if_iff hlookup hfailed _

end Requeues

/-! ## When a compaction keeps what is needed -/

section Equivalence

variable {world : World} {cutoff : String} {keepAncestorDepth limit : ℕ}

theorem exists_row_of_mem_resultCandidates {taskId : String}
    (hmem : taskId ∈ resultCandidates tasks cutoff keepAncestorDepth limit) :
    ∃ row ∈ tasks.rows, row.id = taskId ∧ IsDropped tasks cutoff keepAncestorDepth limit row := by
  obtain ⟨row, hchosen, rfl⟩ := List.mem_map.mp hmem
  have hrow : row ∈ tasks.rows := (List.mem_filter.mp (List.mem_of_mem_take hchosen)).1
  exact ⟨row, hrow, rfl, (mem_resultCandidates hrow).mp hmem⟩

/-- The parent of a task that waits for it keeps its row as it is. -/
theorem lookup_parent_of_noneWaits
    (hnone : NoneWaitsForDropped tasks cutoff keepAncestorDepth limit) {child : TaskRow}
    (hchild : child ∈ tasks.rows) (hwaits : child.status ≠ .completed) {parentId : String}
    (hlink : child.parentTaskId = some parentId) (hnamed : child.status = .failed → parentId ≠ "") :
    (dropResults tasks (resultCandidates tasks cutoff keepAncestorDepth limit)).lookup parentId =
      tasks.lookup parentId := by
  rw [lookup_dropResults]
  cases hlookup : tasks.lookup parentId with
  | none => rfl
  | some parent =>
      have hid := Table.key_of_lookup hlookup
      have hkept : parent.id ∉ resultCandidates tasks cutoff keepAncestorDepth limit := by
        intro hdropped
        have hparent := Table.mem_of_lookup hlookup
        rcases hnone parent hparent ((mem_resultCandidates hparent).mp hdropped) child hchild
          (by rw [hlink, hid]) with hcompleted | ⟨hfailed, hempty⟩
        · exact hwaits hcompleted
        · exact hnamed hfailed (hid.symm.trans hempty)
      rw [Option.map_some, dropResult, if_neg hkept]

theorem claimableIds_of_noneWaits
    (hnone : NoneWaitsForDropped tasks cutoff keepAncestorDepth limit) (role : Option String) :
    claimableIds role (dropResults tasks (resultCandidates tasks cutoff keepAncestorDepth limit)) =
      claimableIds role tasks := by
  have hsame : ∀ row ∈ tasks.rows,
      (isClaimable (dropResults tasks (resultCandidates tasks cutoff keepAncestorDepth limit)) role ∘
        dropResult (resultCandidates tasks cutoff keepAncestorDepth limit)) row =
          isClaimable tasks role row := by
    intro row hrow
    obtain ⟨result, hcolumns⟩ :=
      dropResult_columns (resultCandidates tasks cutoff keepAncestorDepth limit) row
    rw [Function.comp_apply, hcolumns]
    cases hpending : row.isPending with
    | false =>
        rw [isClaimable, isClaimable, hpending]
        change (row.isPending && _ && _) = _
        rw [hpending]
        rfl
    | true =>
        have hstatus : row.status = .pending := of_decide_eq_true hpending
        have hready : isReady (dropResults tasks
            (resultCandidates tasks cutoff keepAncestorDepth limit)) { row with result } =
              isReady tasks row := by
          cases hlink : row.parentTaskId with
          | none => simp [isReady, hlink]
          | some parentId =>
              have hlookup := lookup_parent_of_noneWaits hnone hrow (by simp [hstatus]) hlink
                (by simp [hstatus])
              simp [isReady, hlink, parentReady, hlookup]
        rw [isClaimable, isClaimable, hready]
        rfl
  have hrows : (tasks.rows.map (dropResult
      (resultCandidates tasks cutoff keepAncestorDepth limit))).filter
        (isClaimable (dropResults tasks
          (resultCandidates tasks cutoff keepAncestorDepth limit)) role) =
      (tasks.rows.filter (isClaimable tasks role)).map
        (dropResult (resultCandidates tasks cutoff keepAncestorDepth limit)) := by
    rw [List.filter_map, List.filter_congr hsame]
  rw [claimableIds, claimableIds]
  change List.map TaskRow.id ((tasks.rows.map _).filter _) = _
  rw [hrows, List.map_map]
  exact List.map_congr_left fun row _ => id_dropResult _ row

theorem keepsBehaviour_of_noneWaits
    (hnone : NoneWaitsForDropped world.tasks cutoff keepAncestorDepth limit) :
    KeepsBehaviour world
      (dropResults world.tasks (resultCandidates world.tasks cutoff keepAncestorDepth limit)) where
  claimable role := claimableIds_of_noneWaits hnone role
  parents child hchild hlive parentId hlink := by
    have hwaits : child.status ≠ .completed ∧ child.status ≠ .failed := by
      constructor <;> intro hstatus <;>
        simp [TaskRow.isPending, TaskRow.isRunning, hstatus] at hlive
    rw [resultOf, resultOf, lookup_parent_of_noneWaits hnone hchild hwaits.1 hlink fun hfailed =>
      absurd hfailed hwaits.2]
  requeues taskId maxRetries hreturned := by
    obtain ⟨row, hlookup, hfailed, hcount, hallows⟩ := requeueFailed_run_iff.mp hreturned
    obtain ⟨result, hcolumns⟩ :=
      dropResult_columns (resultCandidates world.tasks cutoff keepAncestorDepth limit) row
    refine requeueFailed_run_iff.mpr ⟨{ row with result }, ?_, hfailed, hcount, ?_⟩
    · rw [lookup_dropResults, hlookup, Option.map_some, hcolumns]
    · intro parentId hlink hnamed
      change parentAllows row.allowFailedParent (Option.map _ ((dropResults world.tasks
        (resultCandidates world.tasks cutoff keepAncestorDepth limit)).lookup parentId)) = true
      rw [lookup_parent_of_noneWaits hnone (Table.mem_of_lookup hlookup)
        (by simp [hfailed]) hlink fun _ => hnamed]
      exact hallows parentId hlink hnamed

theorem noneWaits_of_keepsBehaviour
    (hkeeps : KeepsBehaviour world
      (dropResults world.tasks (resultCandidates world.tasks cutoff keepAncestorDepth limit))) :
    NoneWaitsForDropped world.tasks cutoff keepAncestorDepth limit := by
  intro parent hparent hdropped child hchild hlink
  have hcandidate := (mem_resultCandidates hparent).mpr hdropped
  have hspent := hdropped.1
  rw [isSpent, Bool.and_eq_true, Bool.and_eq_true, Bool.and_eq_true, decide_eq_true_eq] at hspent
  obtain ⟨⟨⟨hcompleted, hresult⟩, -⟩, -⟩ := hspent
  have hlive : (child.isPending || child.isRunning) = true → False := by
    intro hlive
    have hsame := hkeeps.parents child hchild hlive parent.id hlink
    rw [resultOf_dropResults, if_pos hcandidate, resultOf, Table.lookup_of_mem hparent,
      Option.bind_some] at hsame
    rw [← hsame] at hresult
    cases hresult
  cases hstatus : child.status with
  | pending => exact (hlive (by simp [TaskRow.isPending, hstatus])).elim
  | running => exact (hlive (by simp [TaskRow.isRunning, hstatus])).elim
  | completed => exact Or.inl rfl
  | failed =>
      refine Or.inr ⟨rfl, ?_⟩
      by_contra hnamed
      have hbefore : ((requeueFailed child.id (child.retryCount + 1)).run execute world).1 =
          .ok true := by
        refine requeueFailed_run_iff.mpr ⟨child, Table.lookup_of_mem hchild, hstatus, by omega, ?_⟩
        intro parentId hparentId _
        rw [← Option.some.inj (hlink.symm.trans hparentId), Table.lookup_of_mem hparent]
        simp [parentAllows, hcompleted, hresult]
      obtain ⟨row, hlookup, -, -, hallows⟩ :=
        requeueFailed_run_iff.mp (hkeeps.requeues child.id _ hbefore)
      change (dropResults world.tasks _).lookup child.id = some row at hlookup
      rw [lookup_dropResults, Table.lookup_of_mem hchild, Option.map_some] at hlookup
      obtain ⟨result, hcolumns⟩ :=
        dropResult_columns (resultCandidates world.tasks cutoff keepAncestorDepth limit) child
      rw [hcolumns] at hlookup
      have hrow := Option.some.inj hlookup
      have hrefused := hallows parent.id (by rw [← hrow]; exact hlink) hnamed
      change parentAllows _ (Option.map _ ((dropResults world.tasks _).lookup parent.id)) = true
        at hrefused
      rw [lookup_dropResults, Table.lookup_of_mem hparent, Option.map_some, Option.map_some,
        result_dropResult, if_pos hcandidate] at hrefused
      cases hrefused

theorem compactCompletedResults_eq {olderThanDays keepAncestorDepth limit : ℤ}
    {now cutoff : DateTime} (hdays : 0 ≤ olderThanDays ∧ olderThanDays ≤ 999999999)
    (hdepth : 0 ≤ keepAncestorDepth) (hlimit : 0 < limit)
    (hcutoff : now.addDays? (-olderThanDays) = some cutoff) :
    compactCompletedResults tasks olderThanDays keepAncestorDepth limit now =
      .ok ((resultCandidates tasks cutoff.isoText keepAncestorDepth.toNat limit.toNat).length,
        dropResults tasks
          (resultCandidates tasks cutoff.isoText keepAncestorDepth.toNat limit.toNat)) := by
  rw [compactCompletedResults, raiseUnless, if_pos hdays.1, raiseUnless, if_pos hdepth,
    if_neg (not_le.mpr hlimit), raiseUnless, if_pos hdays.2, hcutoff]
  rfl

end Equivalence

/-- A parent is completed and continued by a child, which fails. -/
def Sample.failedChild : List PlannedOperation :=
  [.queue (.call (.add (Sample.task "task-1" none false))),
    .queue (.call (.claim "worker-1" none Sample.noon)),
    .queue (.call (.finish "worker-1" "task-1" (some (.ok "done")) Sample.noon)),
    .markPlannerDecision "task-1" (some "CONTINUE"),
    .queue (.call (.add (Sample.task "task-2" (some "task-1") false))),
    .queue (.call (.claim "worker-1" none Sample.noon)),
    .queue (.call (.fail "worker-1" "task-2" none Sample.noon))]

def Sample.waiting : World := run perform (World.empty Table.empty []) Sample.failedChild

/-- Ten days later. -/
def Sample.nextWeek : DateTime :=
  (Sample.noon.addDays? 10).getD Sample.noon

/-- The cutoff of a compaction with seven days. -/
def Sample.cutoff : DateTime :=
  (Sample.noon.addDays? 3).getD Sample.noon

theorem Sample.addDays_nextWeek : Sample.nextWeek.addDays? (-7) = some Sample.cutoff := by
  decide +kernel

end AegisForge.Shared.TaskQueue
