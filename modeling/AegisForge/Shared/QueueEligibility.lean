import AegisForge.Shared.QueueLifecycle

/-!
# Listed and claimable tasks

`pending` lists the tasks whose parents are ready, and `claim` also takes those
that allow a failed parent.
-/

namespace AegisForge.Shared.TaskQueue

open AegisForge.Core AegisForge.Concurrency

/-! ## Repeated claims -/

/-- The ids that at most `count` claims in a row return, and the store they leave;
`clock` is the time of each claim. -/
def repeatClaims (worker : String) (role : Option String) (clock : ℕ → DateTime) :
    ℕ → World → List String × World
  | 0, world => ([], world)
  | count + 1, world =>
      match (claim worker role (clock count)).run execute world with
      | (.ok (some row), after) =>
          let (taskIds, last) := repeatClaims worker role clock count after
          (row.id :: taskIds, last)
      | (_, after) => ([], after)

/-- What repeated claims return: there are no more of them than tasks. -/
def claimedIds (worker : String) (role : Option String) (clock : ℕ → DateTime) (world : World) :
    List String :=
  (repeatClaims worker role clock world.tasks.rows.length world).1

/-- The ids that `pending` lists. -/
def pendingIds (role : Option String) (world : World) : List String :=
  (pending world.tasks role).map Prod.fst

/-- Every pending task of the role that allows a failed parent is ready. -/
def ReadyWhereAllowed (role : Option String) (world : World) : Prop :=
  ∀ row ∈ world.tasks.rows, row.isPending = true → hasRole role row = true →
    row.allowFailedParent = true → isReady world.tasks row = true

instance (role : Option String) (world : World) : Decidable (ReadyWhereAllowed role world) :=
  inferInstanceAs (Decidable (∀ row ∈ world.tasks.rows, _ = true → _ = true → _ = true → _ = true))

/-! ## One claim -/

section Claim

variable {tasks : TaskTable} {role : Option String} {row : TaskRow}

/-- The table after a claim of the row. -/
def afterClaim (worker startedAt : String) (row : TaskRow) (tasks : TaskTable) : TaskTable :=
  tasks.modify row.id (fun row => row.claimed worker startedAt)
    (TaskRow.id_claimed worker startedAt) (TaskRow.id_claimed worker startedAt)

theorem claim_run (worker : String) (role : Option String) (now : DateTime) (world : World) :
    (claim worker role now).run execute world =
      (.ok ((claimNext worker role now.isoText world.tasks).1.bind
          (claimNext worker role now.isoText world.tasks).2.lookup),
        { world with tasks := (claimNext worker role now.isoText world.tasks).2 }) := by
  rcases hresult : claimNext worker role now.isoText world.tasks with ⟨claimed, tasks⟩
  have hexecute : execute (.claimNext worker role now.isoText) world =
      (claimed, { world with tasks }) := by
    simp only [execute, hresult]
    rfl
  change Program.run execute
    ((Program.done (execute (.claimNext worker role now.isoText) world).1).bind _)
    (execute (.claimNext worker role now.isoText) world).2 = _
  rw [hexecute]
  cases claimed with
  | none => rfl
  | some taskId => rfl

/-- A claim returns a claimable task, or there is none. -/
theorem claim_run_cases (worker : String) (role : Option String) (now : DateTime) (world : World) :
    ((claim worker role now).run execute world = (.ok none, world) ∧
        ∀ row ∈ world.tasks.rows, isClaimable world.tasks role row = false) ∨
      ∃ row ∈ world.tasks.rows, isClaimable world.tasks role row = true ∧
        (claim worker role now).run execute world =
          (.ok (some (row.claimed worker now.isoText)),
            { world with tasks := afterClaim worker now.isoText row world.tasks }) := by
  rw [claim_run]
  rcases claimNext_cases worker role now.isoText world.tasks with
    ⟨hnone, hall⟩ | ⟨row, hrow, hclaimable, hsome⟩
  · rw [hnone]
    exact Or.inl ⟨rfl, hall⟩
  · refine Or.inr ⟨row, hrow, hclaimable, ?_⟩
    rw [hsome, Option.bind_some, Table.lookup_modify_self, Table.lookup_of_mem hrow,
      Option.map_some, afterClaim]

variable (worker startedAt : String)

/-- A claim makes no parent ready, and none unready. -/
theorem parentReady_afterClaim (hrow : row ∈ tasks.rows) (hpending : row.isPending = true)
    (parentId : String) :
    parentReady (afterClaim worker startedAt row tasks) parentId = parentReady tasks parentId := by
  rw [parentReady, parentReady, afterClaim, Table.lookup_modify]
  split
  case isTrue hparent =>
    have hstatus : row.status = .pending := of_decide_eq_true hpending
    rw [hparent, Table.lookup_of_mem hrow, Option.map_some, Option.any_some, Option.any_some,
      hstatus]
    rfl
  case isFalse => rfl

theorem isReady_afterClaim (hrow : row ∈ tasks.rows) (hpending : row.isPending = true)
    (other : TaskRow) : isReady (afterClaim worker startedAt row tasks) other = isReady tasks other := by
  rw [isReady, isReady]
  split
  · rfl
  · exact parentReady_afterClaim worker startedAt hrow hpending _

/-- The ids of the tasks that can be claimed. -/
def claimableIds (role : Option String) (tasks : TaskTable) : List String :=
  (tasks.rows.filter (isClaimable tasks role)).map TaskRow.id

theorem nodup_claimableIds (role : Option String) (tasks : TaskTable) :
    (claimableIds role tasks).Nodup :=
  tasks.primaryKey.sublist (List.filter_sublist.map TaskRow.id)

theorem mem_claimableIds {taskId : String} :
    taskId ∈ claimableIds role tasks ↔
      ∃ row ∈ tasks.rows, isClaimable tasks role row = true ∧ row.id = taskId := by
  rw [claimableIds, List.mem_map]
  simp only [List.mem_filter, and_assoc]

/-- A claim takes one task from those that can be claimed. -/
theorem claimableIds_afterClaim (role : Option String) (hrow : row ∈ tasks.rows)
    (hpending : row.isPending = true) :
    claimableIds role (afterClaim worker startedAt row tasks) =
      (claimableIds role tasks).erase row.id := by
  have hclaimable : ∀ other : TaskRow,
      isClaimable (afterClaim worker startedAt row tasks) role
          (if other.id = row.id then other.claimed worker startedAt else other) =
        (decide (other.id ≠ row.id) && isClaimable tasks role other) := by
    intro other
    by_cases hother : other.id = row.id
    · simp [hother, isClaimable, TaskRow.claimed, TaskRow.isPending]
    · simp [hother, isClaimable, isReady_afterClaim worker startedAt hrow hpending]
  have hkept : ∀ other ∈ tasks.rows.filter fun other =>
      decide (other.id ≠ row.id) && isClaimable tasks role other,
        (if other.id = row.id then other.claimed worker startedAt else other) = id other := by
    intro other hother
    rw [List.mem_filter, Bool.and_eq_true, decide_eq_true_eq] at hother
    rw [if_neg hother.2.1, id]
  have hrows : (afterClaim worker startedAt row tasks).rows.filter
      (isClaimable (afterClaim worker startedAt row tasks) role) =
        (tasks.rows.filter (isClaimable tasks role)).filter (·.id ≠ row.id) := by
    generalize isClaimable (afterClaim worker startedAt row tasks) role = claimable at hclaimable ⊢
    calc ((afterClaim worker startedAt row tasks).rows.filter claimable)
        = (tasks.rows.filter fun other =>
            decide (other.id ≠ row.id) && isClaimable tasks role other).map fun other =>
              if other.id = row.id then other.claimed worker startedAt else other := by
          rw [afterClaim, Table.modify, List.filter_map]
          congr 2
          funext other
          exact hclaimable other
      _ = tasks.rows.filter fun other =>
            decide (other.id ≠ row.id) && isClaimable tasks role other := by
          rw [List.map_congr_left hkept, List.map_id]
      _ = (tasks.rows.filter (isClaimable tasks role)).filter (·.id ≠ row.id) := by
          rw [List.filter_filter]
  rw [(nodup_claimableIds role tasks).erase_eq_filter, claimableIds, claimableIds, hrows,
    List.filter_map]
  congr 1
  apply List.filter_congr
  intro other _
  by_cases hother : other.id = row.id <;> simp [hother]

end Claim

/-! ## All claims -/

/-- Claims return what can be claimed, until there is nothing left. -/
theorem repeatClaims_perm (worker : String) (role : Option String) (clock : ℕ → DateTime)
    {count : ℕ} {world : World} (hcount : (claimableIds role world.tasks).length ≤ count) :
    (repeatClaims worker role clock count world).1.Perm (claimableIds role world.tasks) ∧
      claimableIds role (repeatClaims worker role clock count world).2.tasks = [] := by
  induction count generalizing world with
  | zero =>
      have hnone := List.length_eq_zero_iff.mp (Nat.le_zero.mp hcount)
      refine ⟨?_, hnone⟩
      rw [repeatClaims, hnone]
  | succ count ih =>
      rw [repeatClaims]
      rcases claim_run_cases worker role (clock count) world with
        ⟨hrun, hall⟩ | ⟨row, hrow, hclaimable, hrun⟩
      · have hnone : claimableIds role world.tasks = [] := by
          rw [claimableIds, List.filter_eq_nil_iff.mpr fun row hrow => by simp [hall row hrow],
            List.map_nil]
        rw [hrun]
        refine ⟨?_, hnone⟩
        rw [hnone]
      · have hmem : row.id ∈ claimableIds role world.tasks :=
          mem_claimableIds.mpr ⟨row, hrow, hclaimable, rfl⟩
        have hafter := claimableIds_afterClaim worker (clock count).isoText role hrow
          (isPending_of_isClaimable hclaimable)
        rw [hrun]
        obtain ⟨hperm, hlast⟩ := @ih
          { world with tasks := afterClaim worker (clock count).isoText row world.tasks } (by
            rw [hafter, List.length_erase_of_mem hmem]
            omega)
        refine ⟨?_, hlast⟩
        rw [hafter] at hperm
        exact (hperm.cons row.id).trans (List.perm_cons_erase hmem).symm

theorem length_claimableIds_le (role : Option String) (tasks : TaskTable) :
    (claimableIds role tasks).length ≤ tasks.rows.length := by
  rw [claimableIds, List.length_map]
  exact List.length_filter_le _ _

theorem claimedIds_perm (worker : String) (role : Option String) (clock : ℕ → DateTime)
    (world : World) :
    (claimedIds worker role clock world).Perm (claimableIds role world.tasks) :=
  (repeatClaims_perm worker role clock (length_claimableIds_le role world.tasks)).1

/-! ## Listed and claimed tasks -/

section Agreement

variable {tasks : TaskTable} {role : Option String} {row : TaskRow}

theorem pendingIds_perm (role : Option String) (world : World) :
    (pendingIds role world).Perm
      ((world.tasks.rows.filter (isListed world.tasks role)).map TaskRow.id) := by
  rw [pendingIds, pending, List.map_map]
  exact (List.perm_insertionSort _ _).map TaskRow.id

/-- A listed task can be claimed. -/
theorem isClaimable_of_isListed (hlisted : isListed tasks role row = true) :
    isClaimable tasks role row = true := by
  simp only [isListed, Bool.and_eq_true] at hlisted
  obtain ⟨⟨hpending, hready⟩, hrole⟩ := hlisted
  simp only [isClaimable, Bool.and_eq_true, Bool.or_eq_true]
  exact ⟨⟨hpending, hrole⟩, Or.inr hready⟩

/-- A task that can be claimed is listed if it is ready. -/
theorem isListed_iff_of_isClaimable (hclaimable : isClaimable tasks role row = true) :
    isListed tasks role row = true ↔ isReady tasks row = true := by
  simp only [isClaimable, Bool.and_eq_true] at hclaimable
  simp only [isListed, Bool.and_eq_true]
  exact ⟨fun hlisted => hlisted.1.2, fun hready => ⟨⟨hclaimable.1.1, hready⟩, hclaimable.1.2⟩⟩

/-- Repeated claims return exactly the listed tasks where every pending task that
allows a failed parent is ready. -/
theorem claimedIds_perm_pendingIds_iff (worker : String) (role : Option String)
    (clock : ℕ → DateTime) (world : World) :
    (claimedIds worker role clock world).Perm (pendingIds role world) ↔
      ReadyWhereAllowed role world := by
  have hclaimed := claimedIds_perm worker role clock world
  have hlisted := pendingIds_perm role world
  constructor
  · intro hperm row hrow hpending hrole hallowed
    have hclaimable : isClaimable world.tasks role row = true := by
      simp [isClaimable, hpending, hrole, hallowed]
    have hmem := (hclaimed.symm.trans (hperm.trans hlisted)).mem_iff.mp
      (mem_claimableIds.mpr ⟨row, hrow, hclaimable, rfl⟩)
    obtain ⟨other, hother, hid⟩ := List.mem_map.mp hmem
    obtain ⟨hotherRow, hotherListed⟩ := List.mem_filter.mp hother
    obtain rfl := Table.eq_of_unique_eq hotherRow hrow hid
    exact (isListed_iff_of_isClaimable hclaimable).mp hotherListed
  · intro hready
    have hsame : world.tasks.rows.filter (isClaimable world.tasks role) =
        world.tasks.rows.filter (isListed world.tasks role) := by
      apply List.filter_congr
      intro row hrow
      rw [Bool.eq_iff_iff]
      refine ⟨fun hclaimable => ?_, isClaimable_of_isListed⟩
      rw [isListed_iff_of_isClaimable hclaimable]
      simp only [isClaimable, Bool.and_eq_true, Bool.or_eq_true] at hclaimable
      rcases hclaimable.2 with hallowed | hready'
      · exact hready row hrow hclaimable.1.1 hclaimable.1.2 hallowed
      · exact hready'
    rw [claimableIds, hsame] at hclaimed
    exact hclaimed.trans hlisted.symm

end Agreement

/-- A child that allows a failed parent, next to its pending parent. -/
def Sample.childMoves : List (Move QueueCall) :=
  [.start (.add (Sample.task "task-1" none false)), .advance 0,
    .start (.add (Sample.task "task-2" (some "task-1") true)), .advance 1, .advance 1]

/-- The child is claimed but not listed. -/
theorem not_claimedIds_perm_pendingIds :
    ¬∀ (pool : QueuePool) (worker : String) (role : Option String) (clock : ℕ → DateTime),
      pool.Reachable Sample.start →
        (claimedIds worker role clock pool.history.store).Perm
          (pendingIds role pool.history.store) := by
  intro hall
  have hperm := hall _ "worker-1" none (fun _ => Sample.noon)
    (Sample.reachable_pool Sample.childMoves)
  have hlength := hperm.length_eq
  exact absurd hlength (by decide +kernel)

end AegisForge.Shared.TaskQueue
