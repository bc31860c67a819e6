import AegisForge.Concurrency.Safety
import AegisForge.Shared.LiveForest

/-!
# Compactions next to calls of workers

Two windows are open between statements: a task may be added below a candidate
after a compaction has read what the candidates protect, and the parent that an
`add` has read may be deleted before the insert.  In runs that leave both windows
alone no task loses the parent with which it was added.
-/

namespace AegisForge.Shared.HistoryCompaction

open AegisForge.Core AegisForge.Concurrency
open AegisForge.Shared.TaskQueue hiding Statement execute send compactHistory

/-! ## Calls -/

/-- The calls of workers and compactions, with the chunks that each may take. -/
inductive Call
  | queue (call : QueueCall)
  | compactHistory (keepRecent limit : ℤ) (chunks : ℕ)

inductive Outcome
  | answered (answer : TaskQueue.Answer)
  | deleted (count : ℕ)

def Call.body : Call → Program Statement.Reply Raised Outcome
  | .queue call => (call.body.embed .queue fun _ reply => reply).bind fun answer =>
      .done (.answered answer)
  | .compactHistory keepRecent limit chunks =>
      (HistoryCompaction.compactHistory keepRecent limit chunks).bind fun count =>
        .done (.deleted count)

abbrev CompactionPool := Pool Call Statement.Reply TaskQueue.World Raised Outcome

abbrev CompactionHistory := History Statement TaskQueue.World

abbrev CompactionEvent := Event Statement TaskQueue.World

/-! ## Tasks that were added below a parent -/

/-- The call reads the binding of the task. -/
def readsBinding (index : ℕ) (taskId : String) (event : CompactionEvent) : Bool :=
  match event.statement with
  | .queue (.selectBinding wanted) => event.process = index && wanted = taskId
  | _ => false

/-- The last time that the call read the task, it was stored. -/
def hasFound (index : ℕ) (taskId : String) (trace : List CompactionEvent) : Bool :=
  (trace.find? (readsBinding index taskId)).any fun event =>
    (event.found.tasks.lookup taskId).isSome

/-- The task that an event adds below a parent that its call has found, and the parent. -/
def addedBelow (event : CompactionEvent) (earlier : List CompactionEvent) :
    Option (String × String) :=
  match event.statement with
  | .queue (.insertTask row) =>
      if (event.found.tasks.insert? row).isSome = true then
        (row.parentTaskId.filter fun parentId => hasFound event.process parentId earlier).map
          fun parentId => (row.id, parentId)
      else none
  | _ => none

/-- All tasks that were added below parents that their calls had found. -/
def allAddedBelow : List CompactionEvent → List (String × String)
  | [] => []
  | event :: earlier => (addedBelow event earlier).toList ++ allAddedBelow earlier

/-- A task that was added below a stored parent has it while it is pending or running. -/
def KeepsParents (history : CompactionHistory) : Prop :=
  ∀ link ∈ allAddedBelow history.trace, ∀ child ∈ history.store.tasks.rows, child.id = link.1 →
    (child.isPending || child.isRunning) = true →
      (history.store.tasks.lookup link.2).isSome = true

instance (history : CompactionHistory) : Decidable (KeepsParents history) :=
  inferInstanceAs (Decidable (∀ link ∈ allAddedBelow history.trace, ∀ child ∈ _, _ → _ → _))

/-! ## The windows -/

/-- What was executed since the last event of a kind, if there is one. -/
def since (isMark : CompactionEvent → Bool) (trace : List CompactionEvent) :
    List CompactionEvent :=
  if trace.any isMark then trace.takeWhile fun event => !isMark event else []

/-- The call reads the tasks that are no candidates. -/
def readsOthers (index : ℕ) (event : CompactionEvent) : Bool :=
  match event.statement with
  | .selectOthers _ => event.process = index
  | _ => false

def deletesTask (taskId : String) (event : CompactionEvent) : Bool :=
  match event.statement with
  | .deleteRows removable => taskId ∈ removable
  | _ => false

/-- A task is inserted below one of the tasks. -/
def insertsBelow (taskIds : List String) (event : CompactionEvent) : Bool :=
  match event.statement with
  | .queue (.insertTask row) => row.parentTaskId.any (· ∈ taskIds)
  | _ => false

/-- The parent of an inserted task has not been deleted since the call read it, and no
task has been inserted below the deleted ones since the call read what protects them. -/
def undisturbed (index : ℕ) (statement : Statement) (history : CompactionHistory) : Bool :=
  match statement with
  | .queue (.insertTask row) =>
      row.parentTaskId.all fun parentId =>
        !(since (readsBinding index parentId) history.trace).any (deletesTask parentId)
  | .deleteRows removable =>
      !(since (readsOthers index) history.trace).any (insertsBelow removable)
  | _ => true

/-- `uuid4` answers no id twice. -/
def answersNew (statement : Statement) (history : CompactionHistory) : Bool :=
  match statement with
  | .queue (.insertTask row) => history.trace.all fun event =>
      match event.statement with
      | .queue (.insertTask other) => other.id ≠ row.id
      | _ => true
  | _ => true

/-- Every interleaving of the calls. -/
def interleaved : Schedule Call Statement.Reply TaskQueue.World Raised Outcome where
  starts := fun _ _ => True
  permits := fun _ statement history => answersNew statement history = true

/-- The interleavings that leave the windows alone. -/
def uninterrupted : Schedule Call Statement.Reply TaskQueue.World Raised Outcome where
  starts := fun _ _ => True
  permits := fun index statement history =>
    answersNew statement history = true ∧ undisturbed index statement history = true

instance (pool : CompactionPool) (call : Call) : Decidable (interleaved.starts pool call) :=
  inferInstanceAs (Decidable True)

instance (index : ℕ) (statement : Statement) (history : CompactionHistory) :
    Decidable (interleaved.permits index statement history) :=
  inferInstanceAs (Decidable (_ = true))

instance (pool : CompactionPool) (call : Call) : Decidable (uninterrupted.starts pool call) :=
  inferInstanceAs (Decidable True)

instance (index : ℕ) (statement : Statement) (history : CompactionHistory) :
    Decidable (uninterrupted.permits index statement history) :=
  inferInstanceAs (Decidable (_ ∧ _))

/-! ## What a statement does to tasks and parents -/

section Effects

variable {world : TaskQueue.World} {row : TaskRow} {taskId : String}

/-- A row was there with the same parent, or it is inserted. -/
theorem old_or_inserted (statement : Statement)
    (hrow : row ∈ (execute statement world).2.tasks.rows) :
    (∃ old ∈ world.tasks.rows, old.id = row.id ∧ old.parentTaskId = row.parentTaskId) ∨
      statement = .queue (.insertTask row) ∧ world.tasks.lookup row.id = none := by
  cases statement with
  | queue statement =>
      by_cases hinsert : ∃ other, statement = .insertTask other
      · obtain ⟨other, rfl⟩ := hinsert
        change row ∈ (TaskQueue.execute (.insertTask other) world).2.tasks.rows at hrow
        rw [TaskQueue.execute] at hrow
        split at hrow
        case h_1 => exact Or.inl ⟨row, hrow, rfl, rfl⟩
        case h_2 tasks hinsert =>
          rcases (Table.mem_insert? hinsert).mp hrow with hold | rfl
          · exact Or.inl ⟨row, hold, rfl, rfl⟩
          · exact Or.inr ⟨rfl, (Table.insert?_eq_some_iff.mp hinsert).1⟩
      · obtain ⟨old, hold, hsame⟩ :=
          comesFrom_execute (fun other hother => hinsert ⟨other, hother⟩) world row hrow
        exact Or.inl ⟨old, hold, hsame.id.symm, hsame.parentTaskId.symm⟩
  | updateDescription wanted description =>
      change row ∈ (world.tasks.modify wanted (withDescription description)
        (id_withDescription description) (id_withDescription description)).rows at hrow
      rcases Table.mem_modify.mp hrow with ⟨hold, -⟩ | ⟨old, hlookup, rfl⟩
      · exact Or.inl ⟨row, hold, rfl, rfl⟩
      · exact Or.inl ⟨old, Table.mem_of_lookup hlookup, rfl, rfl⟩
  | deleteRows removable => exact Or.inl ⟨row, (mem_withoutRows.mp hrow).1, rfl, rfl⟩
  | selectDescriptions => exact Or.inl ⟨row, hrow, rfl, rfl⟩
  | selectRecent keepRecent => exact Or.inl ⟨row, hrow, rfl, rfl⟩
  | selectCandidates recent limit => exact Or.inl ⟨row, hrow, rfl, rfl⟩
  | selectOthers candidates => exact Or.inl ⟨row, hrow, rfl, rfl⟩
  | selectParents chunk => exact Or.inl ⟨row, hrow, rfl, rfl⟩

/-- A task stays stored unless it is deleted. -/
theorem isSome_lookup_execute {statement : Statement} (index : ℕ)
    (hkept : deletesTask taskId ⟨index, statement, world⟩ = false)
    (hstored : (world.tasks.lookup taskId).isSome = true) :
    ((execute statement world).2.tasks.lookup taskId).isSome = true := by
  cases statement with
  | queue statement =>
      have hstep : RowStep taskId ⟨0, statement, world⟩ (world.tasks.lookup taskId)
          ((TaskQueue.execute statement world).2.tasks.lookup taskId) :=
        rowStep_after taskId ⟨0, statement, world⟩
      change ((TaskQueue.execute statement world).2.tasks.lookup taskId).isSome = true
      generalize (TaskQueue.execute statement world).2.tasks.lookup taskId = after at hstep ⊢
      generalize world.tasks.lookup taskId = before at hstep hstored
      cases hstep with
      | same => exact hstored
      | _ => rfl
  | updateDescription wanted description =>
      change ((world.tasks.modify wanted (withDescription description)
        (id_withDescription description) (id_withDescription description)).lookup
          taskId).isSome = true
      rw [Table.lookup_modify]
      split
      case isTrue hwanted =>
        rw [← hwanted, Option.isSome_map]
        exact hstored
      case isFalse => exact hstored
  | deleteRows removable =>
      have hnot : taskId ∉ removable := by simpa [deletesTask] using hkept
      change ((withoutRows removable world.tasks).lookup taskId).isSome = true
      rw [lookup_withoutRows hnot]
      exact hstored
  | selectDescriptions => exact hstored
  | selectRecent keepRecent => exact hstored
  | selectCandidates recent limit => exact hstored
  | selectOthers candidates => exact hstored
  | selectParents chunk => exact hstored

end Effects

/-! ## The parent that a call has found -/

section Watched

variable {isMark : CompactionEvent → Bool} {event : CompactionEvent}
variable {trace : List CompactionEvent} {index : ℕ} {taskId : String}

theorem since_cons (hbegun : trace.any isMark = true) (hnot : isMark event = false) :
    since isMark (event :: trace) = event :: since isMark trace := by
  simp [since, hbegun, hnot]

theorem hasFound_cons_of_read (hread : readsBinding index taskId event = true) :
    hasFound index taskId (event :: trace) = (event.found.tasks.lookup taskId).isSome := by
  rw [hasFound, List.find?_cons_of_pos hread, Option.any_some]

theorem hasFound_cons (hnot : readsBinding index taskId event = false) :
    hasFound index taskId (event :: trace) = hasFound index taskId trace := by
  rw [hasFound, List.find?_cons_of_neg (by simp [hnot]), hasFound]

theorem any_of_hasFound (hfound : hasFound index taskId trace = true) :
    trace.any (readsBinding index taskId) = true := by
  obtain ⟨event, hevent, -⟩ := (Option.any_eq_true _ _).mp hfound
  exact List.any_eq_true.mpr ⟨event, List.mem_of_find?_eq_some hevent, List.find?_some hevent⟩

/-- A task that a call has found is stored, or was deleted since. -/
def Watched (history : CompactionHistory) : Prop :=
  ∀ index taskId, hasFound index taskId history.trace = true →
    (since (readsBinding index taskId) history.trace).any (deletesTask taskId) = false →
      (history.store.tasks.lookup taskId).isSome = true

theorem Watched.record {history : CompactionHistory} (hwatched : Watched history) (process : ℕ)
    (statement : Statement) : Watched (history.record execute process statement) := by
  intro index taskId hfound hkept
  rw [History.record_trace] at hfound hkept
  rw [History.record_store]
  cases hread : readsBinding index taskId ⟨process, statement, history.store⟩ with
  | true =>
      rw [hasFound_cons_of_read hread] at hfound
      have hreads : deletesTask taskId ⟨process, statement, history.store⟩ = false := by
        cases statement <;> first | rfl | cases hread
      exact isSome_lookup_execute process hreads hfound
  | false =>
      rw [hasFound_cons hread] at hfound
      rw [since_cons (any_of_hasFound hfound) hread, List.any_cons, Bool.or_eq_false_iff] at hkept
      exact isSome_lookup_execute process hkept.1 (hwatched index taskId hfound hkept.2)

end Watched

/-! ## The parents of added tasks -/

section Linked

variable {history : CompactionHistory} {index : ℕ} {statement : Statement}

/-- What a call establishes before it deletes: no task that stays loses its parent. -/
def mayDelete (statement : Statement) (history : CompactionHistory) : Prop :=
  ∀ removable, statement = .deleteRows removable → ∀ child ∈ history.store.tasks.rows,
    child.id ∉ removable → ∀ parentId, child.parentTaskId = some parentId → parentId ∉ removable

/-- The tasks that were added below a parent have it, as long as they are stored. -/
structure Linked (history : CompactionHistory) : Prop where
  watched : Watched history
  linked : ∀ link ∈ allAddedBelow history.trace, ∀ child ∈ history.store.tasks.rows,
    child.id = link.1 → child.parentTaskId = some link.2 ∧
      (history.store.tasks.lookup link.2).isSome = true

theorem Linked.keepsParents (hlinked : Linked history) : KeepsParents history :=
  fun link hlink child hchild hid _ => (hlinked.linked link hlink child hchild hid).2

theorem linked_idle (start : TaskQueue.World) : Linked ⟨start, []⟩ where
  watched _ _ hfound _ := by cases hfound
  linked _ hlink := absurd hlink List.not_mem_nil

/-- The links are those of inserted rows. -/
theorem exists_insert_of_mem_allAddedBelow {link : String × String} {trace : List CompactionEvent}
    (hlink : link ∈ allAddedBelow trace) :
    ∃ event ∈ trace, ∃ row, event.statement = .queue (.insertTask row) ∧ row.id = link.1 := by
  induction trace with
  | nil => cases hlink
  | cons event earlier ih =>
      rw [allAddedBelow, List.mem_append, Option.mem_toList] at hlink
      rcases hlink with hnew | hold
      · rw [addedBelow] at hnew
        split at hnew
        case h_1 row hstatement =>
          split at hnew
          case isTrue =>
            obtain ⟨parentId, -, rfl⟩ := Option.map_eq_some_iff.mp hnew
            exact ⟨event, List.mem_cons_self, row, hstatement, rfl⟩
          case isFalse => cases hnew
        case h_2 => cases hnew
      · obtain ⟨other, hother, row, hstatement, hid⟩ := ih hold
        exact ⟨other, List.mem_cons_of_mem _ hother, row, hstatement, hid⟩

/-- An id that is inserted has not been inserted before. -/
theorem ne_of_answersNew {row : TaskRow} {link : String × String}
    (hnew : answersNew (.queue (.insertTask row)) history = true)
    (hlink : link ∈ allAddedBelow history.trace) : row.id ≠ link.1 := by
  obtain ⟨event, hevent, other, hstatement, hid⟩ := exists_insert_of_mem_allAddedBelow hlink
  have hother := List.all_eq_true.mp hnew event hevent
  rw [hstatement] at hother
  intro hsame
  exact of_decide_eq_true hother (hid.trans hsame.symm)

/-- A link that the statement adds. -/
theorem linked_added (hwatched : Watched history)
    (hundisturbed : undisturbed index statement history = true) {link : String × String}
    (hlink : addedBelow ⟨index, statement, history.store⟩ history.trace = some link)
    {child : TaskRow} (hchild : child ∈ (execute statement history.store).2.tasks.rows)
    (hid : child.id = link.1) :
    child.parentTaskId = some link.2 ∧
      ((execute statement history.store).2.tasks.lookup link.2).isSome = true := by
  rw [addedBelow] at hlink
  split at hlink
  case h_2 => cases hlink
  case h_1 row hstatement =>
    change statement = .queue (.insertTask row) at hstatement
    subst hstatement
    split at hlink
    case isFalse => cases hlink
    case isTrue hinserted =>
      obtain ⟨after, hinsert⟩ := Option.isSome_iff_exists.mp hinserted
      change history.store.tasks.insert? row = some after at hinsert
      obtain ⟨parentId, hparent, rfl⟩ := Option.map_eq_some_iff.mp hlink
      obtain ⟨hparent, hfound⟩ := Option.filter_eq_some_iff.mp hparent
      have hkept : (since (readsBinding index parentId) history.trace).any
          (deletesTask parentId) = false := by
        rw [undisturbed, hparent] at hundisturbed
        simpa using hundisturbed
      constructor
      · rcases old_or_inserted (.queue (.insertTask row)) hchild with
          ⟨old, hold, hsame, -⟩ | ⟨hinserts, -⟩
        · have hfresh := (Table.insert?_eq_some_iff.mp hinsert).1
          rw [Table.lookup_eq_none_iff] at hfresh
          exact absurd (List.mem_map.mpr ⟨old, hold, hsame.trans hid⟩) hfresh
        · injection hinserts with hinserts
          injection hinserts with hinserts
          rw [← hinserts]
          exact hparent
      · exact isSome_lookup_execute index rfl (hwatched index parentId hfound hkept)

theorem Linked.record (hlinked : Linked history)
    (hpermits : answersNew statement history = true ∧ undisturbed index statement history = true)
    (hmay : mayDelete statement history) :
    Linked (history.record execute index statement) where
  watched := hlinked.watched.record index statement
  linked link hlink child hchild hid := by
    rw [History.record_trace, allAddedBelow, List.mem_append, Option.mem_toList] at hlink
    rw [History.record_store] at hchild ⊢
    rcases hlink with hadded | hold
    · exact linked_added hlinked.watched hpermits.2 hadded hchild hid
    · rcases old_or_inserted statement hchild with ⟨old, holdRow, hsame, hparent⟩ | ⟨rfl, -⟩
      · obtain ⟨hlinkOld, hstored⟩ := hlinked.linked link hold old holdRow (hsame.trans hid)
        refine ⟨hparent.symm.trans hlinkOld, ?_⟩
        apply isSome_lookup_execute index ?_ hstored
        rw [deletesTask]
        split
        case h_1 removable hstatement =>
          change statement = .deleteRows removable at hstatement
          subst hstatement
          have hstays := (mem_withoutRows.mp hchild).2
          rw [← hsame] at hstays
          exact decide_eq_false (hmay removable rfl old holdRow hstays link.2 hlinkOld)
        case h_2 => rfl
      · exact absurd hid (ne_of_answersNew hpermits.1 hold)

def rules : Rules execute :=
  Rules.ofInvariant execute Linked uninterrupted.permits (fun _ => mayDelete)
    fun hlinked hpermits hmay => hlinked.record hpermits hmay

end Linked

/-! ## The walk next to other calls -/

section Walk

variable {history later : CompactionHistory} {index : ℕ} {statement : Statement}
variable {candidates marked frontier : List String}

/-- Between two chunks of the walk: the parent of a task that will stay is marked, is
found from the frontier, or was given a child since the frontier was read. -/
structure Walking (index : ℕ) (candidates marked frontier : List String)
    (history : CompactionHistory) : Prop where
  begun : history.trace.any (readsOthers index) = true
  covered : ∀ child ∈ history.store.tasks.rows, child.id ∉ candidates ∨ child.id ∈ marked →
    ∀ parentId, child.parentTaskId = some parentId →
      child.id ∈ frontier ∨ parentId ∈ marked ∨
        ∃ event ∈ since (readsOthers index) history.trace, insertsBelow [parentId] event = true

theorem Walking.record (hwalking : Walking index candidates marked frontier history)
    {process : ℕ} (hnot : readsOthers index ⟨process, statement, history.store⟩ = false) :
    Walking index candidates marked frontier (history.record execute process statement) where
  begun := by rw [History.record_trace, List.any_cons, hwalking.begun, Bool.or_true]
  covered child hchild hstays parentId hlink := by
    rw [History.record_trace, since_cons hwalking.begun hnot]
    rcases old_or_inserted statement hchild with ⟨old, hold, hid, hparent⟩ | ⟨hinserts, -⟩
    · rw [← hid] at hstays ⊢
      rcases hwalking.covered old hold hstays parentId (hparent.trans hlink) with
        hfrontier | hmarked | ⟨event, hevent, hinserts⟩
      · exact Or.inl hfrontier
      · exact Or.inr (Or.inl hmarked)
      · exact Or.inr (Or.inr ⟨event, List.mem_cons_of_mem _ hevent, hinserts⟩)
    · refine Or.inr (Or.inr ⟨_, List.mem_cons_self, ?_⟩)
      rw [hinserts]
      change child.parentTaskId.any (· ∈ [parentId]) = true
      rw [hlink]
      simp

theorem readsOthers_of_ne {process : ℕ} {world : TaskQueue.World} (hne : process ≠ index) :
    readsOthers index ⟨process, statement, world⟩ = false := by
  cases statement <;> simp [readsOthers, hne]

theorem Walking.rely (hwalking : Walking index candidates marked frontier history)
    (hrely : rules.rely index history later) :
    Walking index candidates marked frontier later :=
  Rules.stable_of_interferes (Walking index candidates marked frontier)
    (fun _ _ _ hne _ _ _ hlast => hlast.record (readsOthers_of_ne hne)) hrely hwalking

/-- Reading the other tasks begins the walk with them. -/
theorem walking_selectOthers (index : ℕ) (candidates : List String) (history : CompactionHistory) :
    Walking index candidates [] (othersThan candidates history.store.tasks)
      (history.record execute index (.selectOthers candidates)) where
  begun := by simp [readsOthers]
  covered child hchild hstays parentId _ := by
    have hother : child.id ∉ candidates := hstays.resolve_right List.not_mem_nil
    exact Or.inl (List.mem_map_of_mem (List.mem_filter.mpr ⟨hchild, decide_eq_true hother⟩))

/-- A chunk marks the parents of its tasks. -/
theorem Walking.selectParents (hwalking : Walking index candidates marked frontier history)
    (size : ℕ) :
    Walking index candidates
      (marked ++ Closure.unmarked marked (parentsOf history.store.tasks (frontier.take size)))
      (frontier.drop size ++
        Closure.unmarked marked (parentsOf history.store.tasks (frontier.take size)))
      (history.record execute index (.selectParents (frontier.take size))) where
  begun := by rw [History.record_trace, List.any_cons, hwalking.begun, Bool.or_true]
  covered child hchild hstays parentId hlink := by
    rw [History.record_trace, since_cons hwalking.begun rfl]
    by_cases hnew : child.id ∈
        Closure.unmarked marked (parentsOf history.store.tasks (frontier.take size))
    · exact Or.inl (List.mem_append_right _ hnew)
    · have hold : child.id ∉ candidates ∨ child.id ∈ marked := by
        rcases hstays with hother | hmarked
        · exact Or.inl hother
        · exact Or.inr ((List.mem_append.mp hmarked).resolve_right hnew)
      rcases hwalking.covered child hchild hold parentId hlink with
        hfrontier | hmarked | ⟨event, hevent, hinserts⟩
      · rw [← List.take_append_drop size frontier, List.mem_append] at hfrontier
        rcases hfrontier with htaken | hleft
        · refine Or.inr (Or.inl ?_)
          have hparent : parentId ∈ parentsOf history.store.tasks (frontier.take size) :=
            mem_parentsOf.mpr ⟨child, hchild, htaken, hlink⟩
          by_cases hmarked : parentId ∈ marked
          · exact List.mem_append_left _ hmarked
          · exact List.mem_append_right _ (Closure.mem_unmarked.mpr ⟨hparent, hmarked⟩)
        · exact Or.inl (List.mem_append_left _ hleft)
      · exact Or.inr (Or.inl (List.mem_append_left _ hmarked))
      · exact Or.inr (Or.inr ⟨event, List.mem_cons_of_mem _ hevent, hinserts⟩)

theorem mayDelete_of_ne (hstatement : ∀ removable, statement ≠ .deleteRows removable) :
    mayDelete statement history := fun removable hdeletes =>
  absurd hdeletes (hstatement removable)

/-- After the walk the unmarked candidates may be deleted, unless one was disturbed. -/
theorem Walking.mayDelete (hwalking : Walking index candidates marked [] history)
    (hundisturbed : undisturbed index
      (.deleteRows (candidates.filter fun taskId => taskId ∉ marked)) history = true) :
    mayDelete (.deleteRows (candidates.filter fun taskId => taskId ∉ marked)) history := by
  intro removable hdeletes child hchild hkept parentId hlink hremovable
  injection hdeletes with hdeletes
  subst hdeletes
  obtain ⟨-, hunmarked⟩ := List.mem_filter.mp hremovable
  have hstays : child.id ∉ candidates ∨ child.id ∈ marked := by
    by_contra hneither
    obtain ⟨hcandidate, hnot⟩ := not_or.mp hneither
    exact hkept (List.mem_filter.mpr ⟨not_not.mp hcandidate, decide_eq_true hnot⟩)
  rcases hwalking.covered child hchild hstays parentId hlink with
    hfrontier | hmarked | ⟨event, hevent, hinserts⟩
  · cases hfrontier
  · exact of_decide_eq_true hunmarked hmarked
  · rw [undisturbed, Bool.not_eq_true', List.any_eq_false] at hundisturbed
    apply hundisturbed event hevent
    rw [insertsBelow] at hinserts ⊢
    split at hinserts
    case h_1 row hstatement =>
      obtain ⟨found, hfound, hsame⟩ := (Option.any_eq_true _ _).mp hinserts
      rw [decide_eq_true_eq, List.mem_singleton] at hsame
      subst hsame
      exact (Option.any_eq_true _ _).mpr ⟨found, hfound, decide_eq_true hremovable⟩
    case h_2 => cases hinserts

/-- The walk is safe and ends with an empty frontier. -/
theorem safe_protect (chunks : ℕ)
    (hwalking : Walking index candidates marked frontier history) :
    rules.Safe index (fun result => Walking index candidates result []) (fun _ _ => True)
      (protect chunks marked frontier) history := by
  induction chunks generalizing history marked frontier with
  | zero =>
      cases frontier with
      | nil => exact fun last hlast _ => hwalking.rely hlast
      | cons first rest => exact fun _ _ _ => trivial
  | succ chunks ih =>
      cases frontier with
      | nil => exact fun last hlast _ => hwalking.rely hlast
      | cons first rest =>
          intro reading hrely _ _
          exact ⟨mayDelete_of_ne (fun _ hdeletes => by cases hdeletes), ih ((hwalking.rely hrely).selectParents chunkSize)⟩

theorem safe_deleteUnprotected (hwalking : Walking index candidates marked [] history) :
    rules.Safe index (fun _ _ => True) (fun _ _ => True) (deleteUnprotected candidates marked)
      history := by
  rw [deleteUnprotected]
  split
  case isTrue => exact fun _ _ _ => trivial
  case isFalse =>
    intro deleting hrely _ hpermits
    exact ⟨(hwalking.rely hrely).mayDelete hpermits.2, fun _ _ _ => trivial⟩

theorem safe_deleteOlder (recent : List String) (limit chunks : ℕ) :
    rules.Safe index (fun _ _ => True) (fun _ _ => True) (deleteOlder recent limit chunks)
      history := by
  refine Rules.Safe.call fun choosing _ _ _ => ?_
  refine ⟨mayDelete_of_ne (fun _ hdeletes => by cases hdeletes), ?_⟩
  change rules.Safe index (fun _ _ => True) (fun _ _ => True)
    (if candidatesBeside recent limit choosing.store.tasks = [] then .done 0
      else (ask (.selectOthers (candidatesBeside recent limit choosing.store.tasks))).bind
        fun others => (protect chunks [] others).bind fun marked =>
          deleteUnprotected (candidatesBeside recent limit choosing.store.tasks) marked)
      (choosing.record execute index (.selectCandidates recent limit))
  split
  case isTrue => exact fun _ _ _ => trivial
  case isFalse =>
    refine Rules.Safe.call fun reading _ hreading hpermits => ?_
    have hrequires : mayDelete
        (.selectOthers (candidatesBeside recent limit choosing.store.tasks)) reading :=
      mayDelete_of_ne fun _ hdeletes => by cases hdeletes
    have hbegun := walking_selectOthers index
      (candidatesBeside recent limit choosing.store.tasks) reading
    exact ⟨hrequires, Rules.Safe.andThen (safe_protect chunks hbegun)
      (fun marked last _ hwalking => safe_deleteUnprotected hwalking)
      (fun _ _ _ _ => trivial) (rules.invariant_record hreading hpermits hrequires)⟩

/-- No statement of the program deletes. -/
theorem safe_of_no_deletion {Value : Type} {program : Program Statement.Reply Raised Value}
    (hwithin : program.Within fun statement => ∀ removable, statement ≠ .deleteRows removable) :
    rules.Safe index (fun _ _ => True) (fun _ _ => True) program history :=
  Rules.safe_of_within (fun _ _ hstatement _ _ => mayDelete_of_ne hstatement) hwithin

theorem within_boundStored (stored : List (String × String)) :
    (boundStored stored).Within fun statement => ∀ removable, statement ≠ .deleteRows removable := by
  induction stored with
  | nil => trivial
  | cons first rest ih =>
      rw [boundStored]
      split
      case isTrue => exact ih
      case isFalse => exact ⟨fun _ hdeletes => (by cases hdeletes), fun _ => ih⟩

theorem safe_compactHistory (keepRecent limit : ℤ) (chunks : ℕ) :
    rules.Safe index (fun _ _ => True) (fun _ _ => True)
      (compactHistory keepRecent limit chunks) history := by
  rw [compactHistory]
  split
  case isTrue => exact fun _ _ _ => trivial
  case isFalse =>
    refine Rules.Safe.call fun reading _ hreading hpermits => ?_
    have hrequires : mayDelete .selectDescriptions reading :=
      mayDelete_of_ne fun _ hdeletes => by cases hdeletes
    refine ⟨hrequires, Rules.Safe.andThen (safe_of_no_deletion (within_boundStored _)) ?_
      (fun _ _ _ _ => trivial) (rules.invariant_record hreading hpermits hrequires)⟩
    intro _ last _ _
    refine Rules.Safe.call fun choosing _ _ _ => ?_
    refine ⟨mayDelete_of_ne (fun _ hdeletes => by cases hdeletes), ?_⟩
    change rules.Safe index (fun _ _ => True) (fun _ _ => True)
      (if recentIds choosing.store.tasks keepRecent.toNat = [] then .done 0
        else deleteOlder (recentIds choosing.store.tasks keepRecent.toNat) limit.toNat chunks)
        (choosing.record execute index (.selectRecent keepRecent.toNat))
    split
    case isTrue => exact fun _ _ _ => trivial
    case isFalse => exact safe_deleteOlder _ _ _

theorem safe_body (call : Call) (hlinked : Linked history) :
    rules.Safe index (fun _ _ => True) (fun _ _ => True) call.body history := by
  cases call with
  | queue call =>
      refine safe_of_no_deletion (Program.Within.bind ?_ fun _ => trivial)
      exact (Program.within_true call.body).embed fun _ _ _ hdeletes => by cases hdeletes
  | compactHistory keepRecent limit chunks =>
      exact Rules.Safe.andThen (safe_compactHistory keepRecent limit chunks)
        (fun _ _ _ _ _ _ _ => trivial) (fun _ _ _ _ => trivial) hlinked

end Walk

/-! ## Every run -/

/-- Every pool that calls lead to from a store. -/
def Interleaves (schedule : Schedule Call Statement.Reply TaskQueue.World Raised Outcome)
    (start : TaskQueue.World)
    (pool : CompactionPool) : Prop :=
  Pool.Reaches execute Call.body schedule (Pool.idle start) pool

/-- In every run that leaves the windows alone, tasks keep the parents with which they
were added. -/
theorem keepsParents_of_uninterrupted {start : TaskQueue.World} {pool : CompactionPool}
    (hpool : Interleaves uninterrupted start pool) : KeepsParents pool.history := by
  have hidle : Rules.Sound rules (fun _ _ _ _ => True) (fun _ _ _ _ => True)
      (Pool.idle start : CompactionPool) := Rules.Sound.idle (linked_idle start)
  have hsound : Rules.Sound rules (fun _ _ _ _ => True) (fun _ _ _ _ => True) pool :=
    Rules.Sound.reaches (fun _ _ _ hpermits => hpermits)
      (fun _ call _ hlinked _ => safe_body call hlinked) hidle hpool
  exact hsound.invariant.keepsParents

/-! ## Two schedules -/

namespace Sample

/-- Two tasks are completed one after the other. -/
def completedMoves : List (Move Call) :=
  [.start (.queue (.add (TaskQueue.Sample.task "task-1" none false))), .advance 0,
    .start (.queue (.claim "worker-1" none TaskQueue.Sample.noon)), .advance 1, .advance 1,
    .start (.queue (.finish "worker-1" "task-1" (some (.ok "done")) TaskQueue.Sample.noon)),
    .advance 2,
    .start (.queue (.add (TaskQueue.Sample.task "task-2" none false))), .advance 3,
    .start (.queue (.claim "worker-1" none TaskQueue.Sample.noon)), .advance 4, .advance 4,
    .start (.queue (.finish "worker-1" "task-2" (some (.ok "done")) TaskQueue.Sample.later)),
    .advance 5]

/-- A child of the first task is added before the compaction. -/
def protectedMoves : List (Move Call) :=
  completedMoves ++
    [.start (.queue (.add (TaskQueue.Sample.task "task-3" (some "task-1") false))), .advance 6,
      .advance 6, .start (.compactHistory 1 10 10), .advance 7, .advance 7, .advance 7, .advance 7,
      .advance 7, .advance 7]

/-- It is added while the compaction walks along the parents. -/
def orphanedMoves : List (Move Call) :=
  completedMoves ++
    [.start (.compactHistory 1 10 10), .advance 6, .advance 6, .advance 6, .advance 6, .advance 6,
      .start (.queue (.add (TaskQueue.Sample.task "task-3" (some "task-1") false))), .advance 7,
      .advance 7, .advance 6]

def pool (moves : List (Move Call)) : CompactionPool :=
  Pool.run execute Call.body (Pool.idle TaskQueue.Sample.start) moves

end Sample

theorem keepsParents_protectedMoves : KeepsParents (Sample.pool Sample.protectedMoves).history := by
  have hallows : Pool.allows execute Call.body uninterrupted (Pool.idle TaskQueue.Sample.start)
      Sample.protectedMoves = true := by decide +kernel
  exact keepsParents_of_uninterrupted (Pool.reaches_run_of_allows hallows)

theorem not_keepsParents_orphanedMoves :
    ¬∀ start pool, Interleaves interleaved start pool → KeepsParents pool.history := by
  intro hall
  have hallows : Pool.allows execute Call.body interleaved (Pool.idle TaskQueue.Sample.start)
      Sample.orphanedMoves = true := by decide +kernel
  have hkeeps := hall _ _ (Pool.reaches_run_of_allows hallows)
  revert hkeeps
  decide +kernel

end AegisForge.Shared.HistoryCompaction
