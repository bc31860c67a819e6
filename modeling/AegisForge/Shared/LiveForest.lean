import AegisForge.Shared.HistoryCompaction
import AegisForge.Shared.QueueEligibility

/-!
# The live tasks and their parents

Every stored description is bounded, so the compaction of the history changes rows
only by deleting them; and it deletes no parent of a task that stays, because a
task that stays is a start of the walk along parents or was met by it.
-/

namespace AegisForge.Shared.TaskQueue

open AegisForge.Core AegisForge.Concurrency
open AegisForge.Shared.ResearchCaseRegistry (CaseTable)
open AegisForge.Shared.HistoryCompaction (removableIds withoutRows deleteHistory_eq othersThan
  edge_parentEdges_iff exists_row_of_mem_removableIds mem_protectedIds_iff)

/-! ## Bounded descriptions -/

section Bounded

theorem size_takeBytes_le (count : ℕ) (characters : List Char) :
    (String.ofList (takeBytes count characters)).utf8ByteSize ≤ count := by
  induction characters generalizing count with
  | nil => simp [takeBytes]
  | cons character rest ih =>
      rw [takeBytes]
      split
      case isTrue hfits =>
        have hrest := ih (count - character.utf8Size)
        rw [String.ofList_cons, String.utf8ByteSize_append, String.utf8ByteSize_singleton]
        omega
      case isFalse => simp

theorem size_boundedDescription_le (description : String) :
    (boundedDescription description).utf8ByteSize ≤ maxDescriptionBytes := by
  rw [boundedDescription]
  split
  case isTrue hsmall => exact hsmall
  case isFalse =>
    have htaken := size_takeBytes_le (maxDescriptionBytes - truncationMark.length)
      description.toList
    have hmark : (String.ofList truncationMark).utf8ByteSize = truncationMark.length := by
      decide +kernel
    have hfits : truncationMark.length ≤ maxDescriptionBytes := by decide
    rw [String.ofList_append, String.utf8ByteSize_append, hmark]
    omega

/-- A description that was bounded is not cut again. -/
theorem boundedDescription_idem (description : String) :
    boundedDescription (boundedDescription description) = boundedDescription description := by
  conv_lhs => rw [boundedDescription]
  exact if_pos (size_boundedDescription_le description)

def HasBoundedDescriptions (tasks : TaskTable) : Prop :=
  ∀ row ∈ tasks.rows, boundedDescription row.description = row.description

theorem boundDescriptions_eq_self {tasks : TaskTable} (hbounded : HasBoundedDescriptions tasks) :
    boundDescriptions tasks = tasks := by
  apply Table.ext
  change tasks.rows.map boundDescription = tasks.rows
  conv_rhs => rw [← List.map_id tasks.rows]
  exact List.map_congr_left fun row hrow => by rw [boundDescription, hbounded row hrow, id]

/-- Every row was there before with the same description, or its description is bounded. -/
def KeepsDescriptions (before after : TaskTable) : Prop :=
  ∀ row ∈ after.rows, (∃ old ∈ before.rows, row.description = old.description) ∨
    boundedDescription row.description = row.description

theorem HasBoundedDescriptions.of_keeps {before after : TaskTable}
    (hbounded : HasBoundedDescriptions before) (hkeeps : KeepsDescriptions before after) :
    HasBoundedDescriptions after := by
  intro row hrow
  rcases hkeeps row hrow with ⟨old, hold, hsame⟩ | hbound
  · rw [hsame]
    exact hbounded old hold
  · exact hbound

theorem keepsDescriptions_refl (tasks : TaskTable) : KeepsDescriptions tasks tasks :=
  fun row hrow => Or.inl ⟨row, hrow, rfl⟩

theorem keepsDescriptions_deleteWhere (tasks : TaskTable) (condition : TaskRow → Bool) :
    KeepsDescriptions tasks (tasks.deleteWhere condition) := fun row hrow =>
  Or.inl ⟨row, (Table.mem_deleteWhere.mp hrow).1, rfl⟩

theorem keepsDescriptions_insert? {before after : TaskTable} {row : TaskRow}
    (hinsert : before.insert? row = some after)
    (hbound : boundedDescription row.description = row.description) :
    KeepsDescriptions before after := by
  intro other hother
  rcases (Table.mem_insert? hinsert).mp hother with hold | rfl
  · exact Or.inl ⟨other, hold, rfl⟩
  · exact Or.inr hbound

theorem keepsDescriptions_results {before after : TaskTable}
    {olderThanDays keepAncestorDepth limit : ℤ} {now : DateTime} {count : ℕ}
    (hcompact : compactCompletedResults before olderThanDays keepAncestorDepth limit now =
      .ok (count, after)) : KeepsDescriptions before after := by
  rcases compactCompletedResults_cases hcompact with ⟨-, rfl⟩ | ⟨-, cutoff, -, rfl⟩
  · exact keepsDescriptions_refl after
  · intro row hrow
    obtain ⟨old, hold, rfl⟩ := Table.mem_mapRows.mp hrow
    refine Or.inl ⟨old, hold, ?_⟩
    rw [dropResult]
    split <;> rfl

/-- A statement that adds no task writes no description. -/
theorem keepsDescriptions_execute {statement : Statement} (hadds : AddsNone statement)
    (world : World) : KeepsDescriptions world.tasks (execute statement world).2.tasks := by
  intro row hrow
  have hstep : RowStep row.id ⟨0, statement, world⟩ (world.tasks.lookup row.id)
      ((execute statement world).2.tasks.lookup row.id) := rowStep_after row.id ⟨0, statement, world⟩
  rw [Table.lookup_of_mem hrow] at hstep
  have hold : ∀ old, world.tasks.lookup row.id = some old → old ∈ world.tasks.rows :=
    fun old hlookup => Table.mem_of_lookup hlookup
  generalize world.tasks.lookup row.id = before at hstep hold
  cases hstep with
  | same => exact Or.inl ⟨row, hold row rfl, rfl⟩
  | added hstatement => exact absurd hstatement (hadds row)
  | @claimed old worker startedAt role => exact Or.inl ⟨old, hold old rfl, rfl⟩
  | @recovered old taskIds => exact Or.inl ⟨old, hold old rfl, rfl⟩
  | @requeued old => exact Or.inl ⟨old, hold old rfl, rfl⟩
  | @reported old status result finishedAt => exact Or.inl ⟨old, hold old rfl, rfl⟩

end Bounded

/-! ## Reachable stores -/

section Reachable

variable {world : World}

theorem hasBoundedDescriptions_call (hbounded : HasBoundedDescriptions world.tasks)
    (call : QueueCall) : HasBoundedDescriptions (call.body.run execute world).2.tasks := by
  by_cases hadd : ∃ task, call = .add task
  · obtain ⟨task, rfl⟩ := hadd
    have hstore : ((QueueCall.add task).body.run execute world).2 =
        ((add task).run execute world).2 :=
      Program.run_bind_done_store execute (add task) Answer.text world
    rw [hstore]
    rcases add_run_store task world with hsame | ⟨row, tasks, hjoins, hinsert, hafter⟩
    · rw [hsame]
      exact hbounded
    · rw [hafter]
      obtain ⟨_, _, -, -, -, rfl⟩ := hjoins.exists_row
      exact hbounded.of_keeps (keepsDescriptions_insert? hinsert (boundedDescription_idem _))
  · have hwithin : call.body.Within AddsNone := by
      refine call.within_body.mono fun statement hmay row hstatement => hadd ?_
      rw [hstatement] at hmay
      exact hmay.2
    exact Program.run_kept execute (fun statement store hadds (hstore : HasBoundedDescriptions _) =>
      hstore.of_keeps (keepsDescriptions_execute hadds store)) hwithin hbounded

theorem hasBoundedDescriptions_operate (hbounded : HasBoundedDescriptions world.tasks)
    (operation : Operation) : HasBoundedDescriptions (operate world operation).tasks := by
  cases operation with
  | call call => exact hasBoundedDescriptions_call hbounded call
  | startCaseRound caseId roundId rootTaskId now =>
      rw [operate]
      split
      case h_1 => exact hbounded
      case h_2 started after hstart =>
        obtain ⟨text, description, -, -, hinsert⟩ := exists_rootTask hstart
        exact hbounded.of_keeps (keepsDescriptions_insert? hinsert (boundedDescription_idem _))
  | repairActiveOrphans => exact hbounded.of_keeps (keepsDescriptions_deleteWhere _ _)
  | compactHistory keepRecent limit =>
      change HasBoundedDescriptions (compactHistory world.tasks keepRecent limit).2
      rw [compactHistory]
      split
      case isTrue => exact hbounded
      case isFalse =>
        have hsame := boundDescriptions_eq_self hbounded
        rw [boundDescriptions] at hsame
        rw [hsame]
        exact hbounded.of_keeps (keepsDescriptions_deleteWhere _ _)
  | compactCompletedResults olderThanDays keepAncestorDepth limit now =>
      rw [operate]
      split
      case h_1 => exact hbounded
      case h_2 count tasks hcompact => exact hbounded.of_keeps (keepsDescriptions_results hcompact)

theorem hasBoundedDescriptions_perform (hbounded : HasBoundedDescriptions world.tasks)
    (operation : PlannedOperation) : HasBoundedDescriptions (perform world operation).tasks := by
  cases operation with
  | queue operation => exact hasBoundedDescriptions_operate hbounded operation
  | markPlannerDecision taskId decision =>
      refine hbounded.of_keeps fun row hrow => Or.inl ?_
      change row ∈ (world.tasks.modify taskId (TaskRow.decided decision)
        (TaskRow.id_decided decision) (TaskRow.id_decided decision)).rows at hrow
      rcases Table.mem_modify.mp hrow with ⟨hold, -⟩ | ⟨old, hlookup, rfl⟩
      · exact ⟨row, hold, rfl⟩
      · exact ⟨old, Table.mem_of_lookup hlookup, rfl⟩

/-- In every reachable store the descriptions are bounded. -/
theorem hasBoundedDescriptions_run (cases : CaseTable) (reviews : List HumanReview)
    (operations : List PlannedOperation) :
    HasBoundedDescriptions (run perform (World.empty cases reviews) operations).tasks := by
  have hstart : HasBoundedDescriptions (World.empty cases reviews).tasks :=
    fun row hrow => absurd hrow List.not_mem_nil
  have hpermitted : Permitted perform (fun _ _ => True) (World.empty cases reviews) operations :=
    permitted_of_forall (fun _ _ => trivial) operations
  exact hpermitted.invariant (fun world => HasBoundedDescriptions world.tasks) hstart
    fun _ operation hbounded _ => hasBoundedDescriptions_perform hbounded operation

end Reachable

/-! ## What a compaction keeps -/

/-- Only finished tasks are gone, live ones are as they were, no task has lost its
parent, and the same tasks can be claimed. -/
structure KeepsLiveForest (before after : TaskTable) : Prop where
  deleted : ∀ row ∈ before.rows, after.lookup row.id = none → isFinished row = true
  live : ∀ row : TaskRow, (row.isPending || row.isRunning) = true →
    (row ∈ after.rows ↔ row ∈ before.rows)
  parents : ∀ child ∈ after.rows, ∀ parentId, child.parentTaskId = some parentId →
    (before.lookup parentId).isSome = true → (after.lookup parentId).isSome = true
  claimable : ∀ role, claimableIds role after = claimableIds role before

theorem KeepsLiveForest.refl (tasks : TaskTable) : KeepsLiveForest tasks tasks where
  deleted row hrow hnone := by
    rw [Table.lookup_of_mem hrow] at hnone
    cases hnone
  live _ _ := Iff.rfl
  parents _ _ _ _ hparent := hparent
  claimable _ := rfl

section Deletion

variable {tasks : TaskTable} {removable : List String}

theorem mem_withoutRows {row : TaskRow} :
    row ∈ (withoutRows removable tasks).rows ↔ row ∈ tasks.rows ∧ row.id ∉ removable := by
  rw [withoutRows, Table.mem_deleteWhere]
  simp

theorem lookup_withoutRows {taskId : String} (hkept : taskId ∉ removable) :
    (withoutRows removable tasks).lookup taskId = tasks.lookup taskId := by
  cases hlookup : tasks.lookup taskId with
  | none =>
      rw [Table.lookup_eq_none_iff] at hlookup ⊢
      intro hmem
      obtain ⟨row, hrow, hid⟩ := List.mem_map.mp hmem
      exact hlookup (List.mem_map.mpr ⟨row, (mem_withoutRows.mp hrow).1, hid⟩)
  | some row =>
      have hid := Table.key_of_lookup hlookup
      rw [← hid] at hkept ⊢
      exact Table.lookup_of_mem (mem_withoutRows.mpr ⟨Table.mem_of_lookup hlookup, hkept⟩)

/-- The rows that may be deleted are finished and are no parents of rows that stay. -/
structure IsHarmless (tasks : TaskTable) (removable : List String) : Prop where
  finished : ∀ row ∈ tasks.rows, row.id ∈ removable → isFinished row = true
  childless : ∀ child ∈ tasks.rows, child.id ∉ removable →
    ∀ parentId, child.parentTaskId = some parentId → parentId ∉ removable

theorem claimableIds_withoutRows (hharmless : IsHarmless tasks removable) (role : Option String) :
    claimableIds role (withoutRows removable tasks) = claimableIds role tasks := by
  have hsame : ∀ row ∈ tasks.rows,
      (isClaimable (withoutRows removable tasks) role row && !decide (row.id ∈ removable)) =
        isClaimable tasks role row := by
    intro row hrow
    cases hpending : row.isPending with
    | false => simp [isClaimable, hpending]
    | true =>
        have hstatus : row.status = .pending := of_decide_eq_true hpending
        have hkept : row.id ∉ removable := by
          intro hmem
          have hfinished := hharmless.finished row hrow hmem
          rw [isFinished, hstatus] at hfinished
          exact absurd hfinished (by decide)
        have hready : isReady (withoutRows removable tasks) row = isReady tasks row := by
          cases hlink : row.parentTaskId with
          | none => simp [isReady, hlink]
          | some parentId =>
              have hlookup : (withoutRows removable tasks).lookup parentId = tasks.lookup parentId :=
                lookup_withoutRows (hharmless.childless row hrow hkept parentId hlink)
              simp [isReady, hlink, parentReady, hlookup]
        simp [isClaimable, hpending, hready, hkept]
  rw [claimableIds, claimableIds]
  congr 1
  change (tasks.rows.filter _).filter _ = _
  rw [List.filter_filter]
  exact List.filter_congr hsame

theorem keepsLiveForest_withoutRows (hharmless : IsHarmless tasks removable) :
    KeepsLiveForest tasks (withoutRows removable tasks) where
  deleted row hrow hnone := by
    by_contra hlive
    have hkept : row.id ∉ removable := fun hmem => hlive (hharmless.finished row hrow hmem)
    rw [lookup_withoutRows hkept, Table.lookup_of_mem hrow] at hnone
    cases hnone
  live row hlive := by
    rw [mem_withoutRows, and_iff_left_iff_imp]
    intro hrow hmem
    have hfinished := hharmless.finished row hrow hmem
    rw [isFinished, decide_eq_true_eq] at hfinished
    rw [TaskRow.isPending, TaskRow.isRunning] at hlive
    cases hstatus : row.status <;> simp [hstatus] at hfinished hlive
  parents child hchild parentId hlink hparent := by
    obtain ⟨hold, hkept⟩ := mem_withoutRows.mp hchild
    rw [lookup_withoutRows (hharmless.childless child hold hkept parentId hlink)]
    exact hparent
  claimable role := claimableIds_withoutRows hharmless role

/-- What the walk does not meet is harmless. -/
theorem isHarmless_removableIds (tasks : TaskTable) (keepRecent limit : ℕ) :
    IsHarmless tasks (removableIds tasks keepRecent limit) where
  finished row hrow hmem := by
    obtain ⟨other, hother, hid, hfinished⟩ := exists_row_of_mem_removableIds hmem
    rw [← Table.eq_of_unique_eq hother hrow hid]
    exact hfinished
  childless child hchild hkept parentId hlink hremovable := by
    obtain ⟨hcandidate, hunprotected⟩ := List.mem_filter.mp hremovable
    have hedge : Closure.Edge (HistoryCompaction.parentEdges tasks) child.id parentId :=
      edge_parentEdges_iff.mpr ⟨child, hchild, rfl, hlink⟩
    apply of_decide_eq_true hunprotected
    rw [mem_protectedIds_iff]
    by_cases hother : child.id ∈ historyCandidates tasks keepRecent limit
    · have hprotected : child.id ∈ protectedIds tasks (historyCandidates tasks keepRecent limit) := by
        by_contra hnot
        exact hkept (List.mem_filter.mpr ⟨hother, decide_eq_true hnot⟩)
      obtain ⟨start, hstart, hway⟩ := mem_protectedIds_iff.mp hprotected
      exact ⟨start, hstart, hway.tail hedge⟩
    · have hstart : child.id ∈ othersThan (historyCandidates tasks keepRecent limit) tasks :=
        List.mem_map_of_mem (List.mem_filter.mpr ⟨hchild, decide_eq_true hother⟩)
      exact ⟨child.id, hstart, Relation.TransGen.single hedge⟩

end Deletion

/-- With enough chunks for its walk, `compact_history` returns in every reachable store
and keeps the live forest. -/
theorem compactHistory_keepsLiveForest (cases : CaseTable) (reviews : List HumanReview)
    (operations : List PlannedOperation) (keepRecent limit : ℤ) (more : ℕ) :
    let world := run perform (World.empty cases reviews) operations
    ∃ deleted after,
      (HistoryCompaction.compactHistory keepRecent limit
        (2 * world.tasks.rows.length + more)).run HistoryCompaction.execute world =
          (.ok deleted, { world with tasks := after }) ∧
        KeepsLiveForest world.tasks after := by
  intro world
  refine ⟨_, _, HistoryCompaction.compactHistory_run keepRecent limit (Nat.le_add_right _ more), ?_⟩
  rw [compactHistory]
  split
  case isTrue => exact KeepsLiveForest.refl world.tasks
  case isFalse =>
    have hbounded := boundDescriptions_eq_self (hasBoundedDescriptions_run cases reviews operations)
    rw [boundDescriptions] at hbounded
    rw [hbounded, deleteHistory_eq]
    exact keepsLiveForest_withoutRows (isHarmless_removableIds _ _ _)

end AegisForge.Shared.TaskQueue
