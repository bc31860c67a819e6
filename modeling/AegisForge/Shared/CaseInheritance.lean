import AegisForge.Core.Runs
import AegisForge.Shared.CaseRounds
import AegisForge.Shared.QueueLifecycle
import AegisForge.Shared.QueueMaintenance

/-!
# Cases and rounds of tasks

A task has the case and the round of its parent, whichever operation created or
deleted rows around it.
-/

namespace AegisForge.Shared.TaskQueue

open AegisForge.Core AegisForge.Concurrency
open AegisForge.Shared.ResearchCaseRegistry (CaseTable)

/-! ## Operations -/

inductive Operation
  | call (call : QueueCall)
  | startCaseRound (caseId : PyValue) (roundId rootTaskId : String) (now : DateTime)
  | repairActiveOrphans
  | compactHistory (keepRecent limit : ℤ)
  | compactCompletedResults (olderThanDays keepAncestorDepth limit : ℤ) (now : DateTime)

/-- The store that an operation leaves, with nobody else at the store. -/
def operate (world : World) : Operation → World
  | .call call => (call.body.run execute world).2
  | .startCaseRound caseId roundId rootTaskId now =>
      match startCaseRound caseId roundId rootTaskId now world with
      | .error _ => world
      | .ok (_, after) => after
  | .repairActiveOrphans => { world with tasks := (repairActiveOrphans world.tasks).2 }
  | .compactHistory keepRecent limit =>
      { world with tasks := (compactHistory world.tasks keepRecent limit).2 }
  | .compactCompletedResults olderThanDays keepAncestorDepth limit now =>
      match compactCompletedResults world.tasks olderThanDays keepAncestorDepth limit now with
      | .error _ => world
      | .ok (_, tasks) => { world with tasks }

/-- The task id that `uuid4` answers to an operation. -/
def Operation.newId : Operation → Option String
  | .call (.add task) => some task.taskId
  | .startCaseRound _ _ rootTaskId _ => some rootTaskId
  | _ => none

/-- An id that no row has, and that no row has as its parent. -/
def IsUnused (taskId : String) (world : World) : Prop :=
  taskId ≠ "" ∧ ∀ row ∈ world.tasks.rows, row.id ≠ taskId ∧ row.parentTaskId ≠ some taskId

/-- `uuid4` answers ids that have not been used. -/
def AnswersUnused (world : World) (operation : Operation) : Prop :=
  ∀ taskId, operation.newId = some taskId → IsUnused taskId world

instance (taskId : String) (world : World) : Decidable (IsUnused taskId world) :=
  inferInstanceAs (Decidable (_ ∧ ∀ row ∈ world.tasks.rows, _ ∧ _))

instance (world : World) (operation : Operation) : Decidable (AnswersUnused world operation) :=
  decidable_of_iff (operation.newId.all (fun taskId => IsUnused taskId world) = true) <| by
    rw [AnswersUnused]
    cases operation.newId <;> simp

/-- A store without tasks. -/
def World.empty (cases : CaseTable) (reviews : List HumanReview) : World where
  tasks := Table.empty
  cases := cases
  reviews := reviews
  rounds := Table.empty
  departed := []

/-! ## The invariant -/

/-- Every task is bound as its parent is, to a registered case, and to some case if
its role needs one. -/
structure CasesInherited (world : World) : Prop where
  inherits : ∀ child ∈ world.tasks.rows, ∀ parent ∈ world.tasks.rows,
    child.parentTaskId = some parent.id →
      child.researchCaseId = parent.researchCaseId ∧ child.roundId = parent.roundId
  registered : ∀ row ∈ world.tasks.rows, ∀ caseId, row.researchCaseId = some caseId →
    (world.cases.lookup caseId).isSome = true
  bound : ∀ row ∈ world.tasks.rows, needsCase row.role = true → row.researchCaseId.isSome = true

/-- What the invariant says about a row depends on these columns. -/
structure SameBinding (before after : TaskRow) : Prop where
  id : after.id = before.id
  role : after.role = before.role
  parentTaskId : after.parentTaskId = before.parentTaskId
  researchCaseId : after.researchCaseId = before.researchCaseId
  roundId : after.roundId = before.roundId

theorem SameBinding.refl (row : TaskRow) : SameBinding row row := ⟨rfl, rfl, rfl, rfl, rfl⟩

/-- Every row was there before, up to other columns. -/
def ComesFrom (before after : TaskTable) : Prop :=
  ∀ row ∈ after.rows, ∃ old ∈ before.rows, SameBinding old row

/-- A registered case stays registered. -/
def KeepsCases (before after : CaseTable) : Prop :=
  ∀ caseId, (before.lookup caseId).isSome = true → (after.lookup caseId).isSome = true

section Preservation

variable {world : World} {tasks : TaskTable} {cases : CaseTable}

theorem CasesInherited.of_comesFrom {after : World} (hinherited : CasesInherited world)
    (htasks : ComesFrom world.tasks after.tasks) (hcases : KeepsCases world.cases after.cases) :
    CasesInherited after where
  inherits child hchild parent hparent hlink := by
    obtain ⟨oldChild, hmem, hsame⟩ := htasks child hchild
    obtain ⟨oldParent, hmem', hsame'⟩ := htasks parent hparent
    rw [hsame.researchCaseId, hsame.roundId, hsame'.researchCaseId, hsame'.roundId]
    apply hinherited.inherits oldChild hmem oldParent hmem'
    rw [← hsame.parentTaskId, hlink, hsame'.id]
  registered row hrow caseId hcase := by
    obtain ⟨old, hmem, hsame⟩ := htasks row hrow
    apply hcases
    apply hinherited.registered old hmem
    rw [← hsame.researchCaseId, hcase]
  bound row hrow hneeds := by
    obtain ⟨old, hmem, hsame⟩ := htasks row hrow
    rw [hsame.researchCaseId]
    apply hinherited.bound old hmem
    rw [← hsame.role, hneeds]

/-- What the binding of a new task must be. -/
structure MayJoin (world : World) (row : TaskRow) : Prop where
  unused : ∀ other ∈ world.tasks.rows, other.parentTaskId ≠ some row.id
  inherits : ∀ parent ∈ world.tasks.rows, row.parentTaskId = some parent.id →
    row.researchCaseId = parent.researchCaseId ∧ row.roundId = parent.roundId
  registered : ∀ caseId, row.researchCaseId = some caseId →
    (world.cases.lookup caseId).isSome = true
  bound : needsCase row.role = true → row.researchCaseId.isSome = true

theorem CasesInherited.of_insert (hinherited : CasesInherited world) {row : TaskRow}
    {after : World} (hcases : after.cases = world.cases)
    (hinsert : world.tasks.insert? row = some after.tasks) (hjoin : MayJoin world row) :
    CasesInherited after where
  inherits child hchild parent hparent hlink := by
    rcases (Table.mem_insert? hinsert).mp hchild with hchild | rfl
    · rcases (Table.mem_insert? hinsert).mp hparent with hparent | rfl
      · exact hinherited.inherits child hchild parent hparent hlink
      · exact absurd hlink (hjoin.unused child hchild)
    · rcases (Table.mem_insert? hinsert).mp hparent with hparent | rfl
      · exact hjoin.inherits parent hparent hlink
      · exact ⟨rfl, rfl⟩
  registered other hother caseId hcase := by
    rw [hcases]
    rcases (Table.mem_insert? hinsert).mp hother with hother | rfl
    · exact hinherited.registered other hother caseId hcase
    · exact hjoin.registered caseId hcase
  bound other hother hneeds := by
    rcases (Table.mem_insert? hinsert).mp hother with hother | rfl
    · exact hinherited.bound other hother hneeds
    · exact hjoin.bound hneeds

/-! ## Statements that add no task -/

theorem keepsCases_execute (statement : Statement) (world : World) :
    KeepsCases world.cases (execute statement world).2.cases := by
  intro caseId hcase
  cases statement with
  | cases statement =>
      obtain ⟨row, hrow⟩ := Option.isSome_iff_exists.mp hcase
      have hpayload : ResearchCaseRegistry.payload? world.cases caseId = some row.payload := by
        rw [ResearchCaseRegistry.payload?, hrow, Option.map_some]
      have hkept := ResearchCaseRegistry.payload?_execute_of_some statement world.cases hpayload
      rw [ResearchCaseRegistry.payload?, Option.map_eq_some_iff] at hkept
      obtain ⟨kept, hlookup, -⟩ := hkept
      exact Option.isSome_iff_exists.mpr ⟨kept, hlookup⟩
  | insertTask row =>
      rw [execute]
      split
      · exact hcase
      · exact hcase
  | _ => exact hcase

theorem comesFrom_execute {statement : Statement} (hinsert : ∀ row, statement ≠ .insertTask row)
    (world : World) : ComesFrom world.tasks (execute statement world).2.tasks := by
  intro row hrow
  have hstep := rowStep_after row.id ⟨0, statement, world⟩
  have hafter : (execute statement world).2.tasks.lookup row.id = some row :=
    Table.lookup_of_mem hrow
  rw [show (Event.after execute ⟨0, statement, world⟩).tasks.lookup row.id = some row from hafter]
    at hstep
  generalize hfound : world.tasks.lookup row.id = found at hstep
  cases hstep with
  | same => exact ⟨row, Table.mem_of_lookup hfound, SameBinding.refl row⟩
  | added hstatement => exact absurd hstatement (hinsert row)
  | @claimed old => exact ⟨old, Table.mem_of_lookup hfound, rfl, rfl, rfl, rfl, rfl⟩
  | @recovered old => exact ⟨old, Table.mem_of_lookup hfound, rfl, rfl, rfl, rfl, rfl⟩
  | @requeued old => exact ⟨old, Table.mem_of_lookup hfound, rfl, rfl, rfl, rfl, rfl⟩
  | @reported old => exact ⟨old, Table.mem_of_lookup hfound, rfl, rfl, rfl, rfl, rfl⟩

end Preservation

/-! ## Adding a task -/

section Add

variable {world : World}

/-- The statement leaves every store alone. -/
def IsRead (statement : Statement) : Prop := ∀ world, (execute statement world).2 = world

theorem run_store_of_reads {Value : Type} {program : Program Statement.Reply Raised Value}
    (hwithin : program.Within IsRead) (world : World) : (program.run execute world).2 = world := by
  have hkept : ∀ statement store, IsRead statement → store = world →
      (execute statement store).2 = world := by
    intro statement store hread hstore
    rw [hread, hstore]
  exact Program.run_kept execute hkept hwithin rfl

theorem bindToParent_run_store (task : NewTask) (world : World) :
    ((bindToParent task).run execute world).2 = world :=
  run_store_of_reads (within_bindToParent (fun _ _ => rfl) task) world

theorem checkCase_run_store (researchCaseId : Option String) (world : World) :
    ((checkCase researchCaseId).run execute world).2 = world :=
  run_store_of_reads (within_checkCase (fun _ _ => rfl) researchCaseId) world

/-- After its insert a call changes nothing. -/
theorem insertTask_run_store (row : TaskRow) (taskId : String) (world : World) :
    (((send (.insertTask row)).bind fun (inserted : Bool) =>
      (Program.raiseIf (inserted = false)
        ⟨.integrityError, "UNIQUE constraint failed: queue.id"⟩).bind
          fun _ => Program.done taskId).run execute world).2 =
      (execute (.insertTask row) world).2 := by
  have hrest : ∀ (inserted : Bool) (after : World),
      (((Program.raiseIf (inserted = false)
        ⟨.integrityError, "UNIQUE constraint failed: queue.id"⟩ :
          Program Statement.Reply Raised PUnit).bind
            fun _ => Program.done taskId).run execute after).2 = after := by
    intro inserted after
    cases inserted <;> rfl
  exact hrest _ _

/-- The row that an `add` inserted, and the checks that it passed. -/
structure Joins (task : NewTask) (world : World) (row : TaskRow) : Prop where
  exists_row : ∃ binding intent, (bindToParent task).run execute world = (.ok binding, world) ∧
    ¬(needsCase task.role = true ∧ isFilled binding.1 = false) ∧
      (checkCase binding.1).run execute world = (.ok ⟨⟩, world) ∧
        row = task.row binding.1 binding.2 intent

/-- `add` inserts a row that joins the tasks, or changes nothing. -/
theorem add_run_store (task : NewTask) (world : World) :
    ((add task).run execute world).2 = world ∨
      ∃ row tasks, Joins task world row ∧ world.tasks.insert? row = some tasks ∧
        ((add task).run execute world).2 = { world with tasks } := by
  rcases Program.run_bind_of_kept execute (bindToParent_run_store task world) with
    hsame | ⟨binding, hbinding, hrun⟩
  · exact Or.inl hsame
  rw [add, Program.bind_eq, hrun]
  rcases Program.run_bind_of_kept execute (Program.run_raiseIf_store execute
    (needsCase task.role = true ∧ isFilled binding.1 = false)
    (caseRequiredError (task.role.getD "")) world) with hsame | ⟨_, hneeds, hrun⟩
  · exact Or.inl hsame
  rw [Program.bind_eq, hrun]
  rcases Program.run_bind_of_kept execute (checkCase_run_store binding.1 world) with
    hsame | ⟨_, hcase, hrun⟩
  · exact Or.inl hsame
  rw [Program.bind_eq, hrun]
  rcases Program.run_bind_of_kept execute (Program.run_ofExcept_store execute _ world) with
    hsame | ⟨intent, _, hrun⟩
  · exact Or.inl hsame
  rw [Program.bind_eq, hrun]
  have hexecute := insertTask_run_store (task.row binding.1 binding.2 intent) task.taskId world
  cases hinsert : world.tasks.insert? (task.row binding.1 binding.2 intent) with
  | none =>
      rw [execute, hinsert] at hexecute
      exact Or.inl hexecute
  | some tasks =>
      rw [execute, hinsert] at hexecute
      refine Or.inr ⟨_, tasks, ⟨binding, intent, hbinding, ?_, hcase, rfl⟩, hinsert, hexecute⟩
      exact (Program.run_raiseIf_eq_ok execute hneeds).1

/-! ## The binding of a new task -/

theorem eq_of_inheritCase {researchCaseId parentCaseId parentRoundId result : Option String}
    (hresult : inheritCase researchCaseId (some (parentCaseId, parentRoundId)) = .ok result) :
    result = parentCaseId := by
  rw [inheritCase] at hresult
  split at hresult
  case isTrue => exact (Except.ok.inj hresult).symm
  case isFalse =>
    split at hresult
    case isTrue => cases hresult
    case isFalse hsame =>
      rw [← Except.ok.inj hresult]
      exact not_not.mp hsame

theorem eq_of_inheritRound {roundId parentCaseId parentRoundId result : Option String}
    (hresult : inheritRound roundId (some (parentCaseId, parentRoundId)) = .ok result) :
    result = parentRoundId := by
  rw [inheritRound] at hresult
  split at hresult
  case isTrue => exact (Except.ok.inj hresult).symm
  case isFalse =>
    split at hresult
    case isTrue => cases hresult
    case isFalse hsame =>
      rw [← Except.ok.inj hresult]
      exact not_not.mp hsame

/-- A task is stored with the case and the round of its parent. -/
theorem eq_of_bindToParent {task : NewTask} {binding : Option String × Option String}
    {after : World} (hrun : (bindToParent task).run execute world = (.ok binding, after))
    {parent : TaskRow} (hparent : parent ∈ world.tasks.rows) (hnamed : parent.id ≠ "")
    (hlink : task.parentTaskId = some parent.id) :
    binding = (parent.researchCaseId, parent.roundId) := by
  have hfilter : task.parentTaskId.filter (· ≠ "") = some parent.id := by
    rw [hlink]
    simp [hnamed]
  have hreply : (execute (.selectBinding parent.id) world).1 =
      some (parent.researchCaseId, parent.roundId) := by
    rw [execute, Table.lookup_of_mem hparent]
    rfl
  rw [bindToParent, hfilter] at hrun
  obtain ⟨reply, between, hsend, hrun⟩ := Program.run_bind_eq_ok execute hrun
  obtain ⟨hsame, hworld⟩ := Prod.mk.inj hsend
  rw [hreply] at hsame
  obtain rfl := Except.ok.inj hsame
  obtain ⟨researchCaseId, last, hcase, hrun⟩ := Program.run_bind_eq_ok execute hrun
  obtain ⟨roundId, final, hround, hrun⟩ := Program.run_bind_eq_ok execute hrun
  have hcaseId := eq_of_inheritCase (Program.run_ofExcept_eq_ok execute hcase).1
  have hroundId := eq_of_inheritRound (Program.run_ofExcept_eq_ok execute hround).1
  rw [← Except.ok.inj (Prod.mk.inj hrun).1, hcaseId, hroundId]

/-- A case that passed its check is registered. -/
theorem registered_of_checkCase {caseId : String} {value : PUnit} {after : World}
    (hrun : (checkCase (some caseId)).run execute world = (.ok value, after)) :
    (world.cases.lookup caseId).isSome = true := by
  rw [checkCase] at hrun
  obtain ⟨case, between, hget, hrun⟩ := Program.run_bind_eq_ok execute hrun
  obtain ⟨_, _, hnone, -⟩ := Program.run_bind_eq_ok execute hrun
  have hsome := (Program.run_raiseIf_eq_ok execute hnone).1
  rw [getResearchCase] at hget
  split at hget
  case isTrue =>
    obtain ⟨hcase, -⟩ := Prod.mk.inj hget
    rw [← Except.ok.inj hcase] at hsome
    exact absurd rfl hsome
  case isFalse =>
    obtain ⟨payload, last, hsend, hread⟩ := Program.run_bind_eq_ok execute hget
    have hpayload : ResearchCaseRegistry.payload? world.cases caseId = payload :=
      Except.ok.inj (Prod.mk.inj hsend).1
    rw [ResearchCaseRegistry.payload?] at hpayload
    cases hlookup : world.cases.lookup caseId with
    | some row => rfl
    | none =>
        rw [hlookup, Option.map_none] at hpayload
        rw [← hpayload] at hread
        have hcase := (Program.run_ofExcept_eq_ok execute hread).1
        rw [ResearchCaseRegistry.readCase] at hcase
        rw [← Except.ok.inj hcase] at hsome
        exact absurd rfl hsome

/-- The row of an `add` may join the tasks. -/
theorem Joins.mayJoin {task : NewTask} {row : TaskRow} (hjoins : Joins task world row)
    (hnamed : ∀ other ∈ world.tasks.rows, other.id ≠ "")
    (hunused : IsUnused task.taskId world) : MayJoin world row := by
  obtain ⟨binding, intent, hbinding, hneeds, hcase, rfl⟩ := hjoins.exists_row
  refine ⟨fun other hother => (hunused.2 other hother).2, fun parent hparent hlink => ?_,
    fun caseId hcaseId => ?_, fun hrole => ?_⟩
  · have hsame := eq_of_bindToParent hbinding hparent (hnamed parent hparent) hlink
    exact ⟨congrArg Prod.fst hsame, congrArg Prod.snd hsame⟩
  · rw [show binding.1 = some caseId from hcaseId] at hcase
    exact registered_of_checkCase hcase
  · have hfilled : isFilled binding.1 = true := by
      by_contra hnot
      exact hneeds ⟨hrole, by simpa using hnot⟩
    obtain ⟨caseId, hcaseId, -⟩ := (Option.any_eq_true _ _).mp hfilled
    exact Option.isSome_iff_exists.mpr ⟨caseId, hcaseId⟩

end Add

/-! ## A new round -/

section Rounds

variable {world after : World}

theorem registered_of_getResearchCase {cases : CaseTable} {caseId : String} {case : ResearchCase}
    (hget : ResearchCaseRegistry.getResearchCase cases caseId = .ok (some case)) :
    (cases.lookup caseId).isSome = true := by
  rw [ResearchCaseRegistry.getResearchCase] at hget
  split at hget
  case isTrue => cases hget
  case isFalse =>
    rw [ResearchCaseRegistry.payload?] at hget
    cases hlookup : cases.lookup caseId with
    | some row => rfl
    | none =>
        rw [hlookup, Option.map_none, ResearchCaseRegistry.readCase] at hget
        cases hget

/-- A round inserts one root task of a registered case. -/
theorem exists_rootTask {caseId : PyValue} {roundId rootTaskId : String} {now : DateTime}
    {started : StartedRound}
    (hstart : startCaseRound caseId roundId rootTaskId now world = .ok (started, after)) :
    ∃ text description, after.cases = world.cases ∧ (world.cases.lookup text).isSome = true ∧
      world.tasks.insert? (rootTask text roundId rootTaskId description now.isoText) =
        some after.tasks := by
  rw [startCaseRound] at hstart
  obtain ⟨text, -, hstart⟩ := orRaise_bind_eq_ok hstart
  obtain ⟨case, hcase, hstart⟩ := bind_eq_ok hstart
  obtain ⟨_, -, hinsert⟩ := bind_eq_ok hstart
  rw [runnableCase] at hcase
  obtain ⟨found, hfound, hcase⟩ := bind_eq_ok hcase
  obtain ⟨registered, rfl, -⟩ := orRaise_bind_eq_ok hcase
  rw [insertRound] at hinsert
  obtain ⟨tasks, htasks, hinsert⟩ := orRaise_bind_eq_ok hinsert
  obtain ⟨rounds, -, hinsert⟩ := orRaise_bind_eq_ok hinsert
  obtain ⟨-, rfl⟩ := Prod.mk.inj (Except.ok.inj hinsert)
  exact ⟨text, _, rfl, registered_of_getResearchCase hfound, htasks⟩

theorem mayJoin_rootTask {text roundId rootTaskId description createdAt : String}
    (hregistered : (world.cases.lookup text).isSome = true)
    (hunused : IsUnused rootTaskId world) :
    MayJoin world (rootTask text roundId rootTaskId description createdAt) where
  unused other hother := (hunused.2 other hother).2
  inherits _ _ hlink := by cases hlink
  registered caseId hcase := by
    rw [← Option.some.inj hcase]
    exact hregistered
  bound _ := rfl

end Rounds

/-! ## Repair and compaction -/

section Maintenance

variable {tasks : TaskTable}

theorem comesFrom_deleteWhere (condition : TaskRow → Bool) :
    ComesFrom tasks (tasks.deleteWhere condition) := fun row hrow =>
  ⟨row, (Table.mem_deleteWhere.mp hrow).1, SameBinding.refl row⟩

theorem comesFrom_mapRows {change : TaskRow → TaskRow} {hkey hunique : ∀ row, (change row).id = row.id}
    (hchange : ∀ row, SameBinding row (change row)) :
    ComesFrom tasks (tasks.mapRows change hkey hunique) := by
  intro row hrow
  obtain ⟨old, hold, rfl⟩ := Table.mem_mapRows.mp hrow
  exact ⟨old, hold, hchange old⟩

theorem ComesFrom.trans {before between after : TaskTable} (hfirst : ComesFrom before between)
    (hsecond : ComesFrom between after) : ComesFrom before after := by
  intro row hrow
  obtain ⟨middle, hmiddle, hlater⟩ := hsecond row hrow
  obtain ⟨old, hold, hearlier⟩ := hfirst middle hmiddle
  exact ⟨old, hold, hlater.id.trans hearlier.id, hlater.role.trans hearlier.role,
    hlater.parentTaskId.trans hearlier.parentTaskId,
    hlater.researchCaseId.trans hearlier.researchCaseId, hlater.roundId.trans hearlier.roundId⟩

theorem ComesFrom.refl (tasks : TaskTable) : ComesFrom tasks tasks := fun row hrow =>
  ⟨row, hrow, SameBinding.refl row⟩

theorem comesFrom_compactHistory (keepRecent limit : ℤ) :
    ComesFrom tasks (compactHistory tasks keepRecent limit).2 := by
  rw [compactHistory]
  split
  case isTrue => exact ComesFrom.refl tasks
  case isFalse =>
    have hbounded : ComesFrom tasks
        (tasks.mapRows boundDescription id_boundDescription id_boundDescription) :=
      comesFrom_mapRows fun _ => ⟨rfl, rfl, rfl, rfl, rfl⟩
    exact hbounded.trans (comesFrom_deleteWhere _)

theorem sameBinding_dropResult (taskIds : List String) (row : TaskRow) :
    SameBinding row (dropResult taskIds row) := by
  rw [dropResult]
  split
  · exact ⟨rfl, rfl, rfl, rfl, rfl⟩
  · exact SameBinding.refl row

theorem comesFrom_compactCompletedResults {olderThanDays keepAncestorDepth limit : ℤ}
    {now : DateTime} {count : ℕ} {after : TaskTable}
    (hcompact : compactCompletedResults tasks olderThanDays keepAncestorDepth limit now =
      .ok (count, after)) : ComesFrom tasks after := by
  rcases compactCompletedResults_cases hcompact with ⟨-, rfl⟩ | ⟨-, cutoff, -, rfl⟩
  · exact ComesFrom.refl after
  · exact comesFrom_mapRows (sameBinding_dropResult _)

end Maintenance

/-! ## Every reachable state -/

/-- The invariant with what keeps it: no task has the empty id. -/
structure Sound (world : World) : Prop where
  inherited : CasesInherited world
  named : ∀ row ∈ world.tasks.rows, row.id ≠ ""

section Runs

variable {world after : World}

theorem Sound.of_comesFrom (hsound : Sound world) (htasks : ComesFrom world.tasks after.tasks)
    (hcases : KeepsCases world.cases after.cases) : Sound after where
  inherited := hsound.inherited.of_comesFrom htasks hcases
  named row hrow := by
    obtain ⟨old, hold, hsame⟩ := htasks row hrow
    rw [hsame.id]
    exact hsound.named old hold

theorem Sound.of_insert (hsound : Sound world) {row : TaskRow} (hcases : after.cases = world.cases)
    (hinsert : world.tasks.insert? row = some after.tasks) (hjoin : MayJoin world row)
    (hnamed : row.id ≠ "") : Sound after where
  inherited := hsound.inherited.of_insert hcases hinsert hjoin
  named other hother := by
    rcases (Table.mem_insert? hinsert).mp hother with hold | rfl
    · exact hsound.named other hold
    · exact hnamed

/-- A statement that adds no task. -/
def AddsNone (statement : Statement) : Prop := ∀ row, statement ≠ .insertTask row

theorem Sound.execute (hsound : Sound world) {statement : Statement} (hadds : AddsNone statement) :
    Sound (execute statement world).2 :=
  hsound.of_comesFrom (comesFrom_execute hadds world) (keepsCases_execute statement world)

theorem Sound.run (hsound : Sound world) {call : QueueCall} (hadd : ∀ task, call ≠ .add task) :
    Sound (call.body.run TaskQueue.execute world).2 := by
  have hwithin : call.body.Within AddsNone := by
    refine call.within_body.mono fun statement hmay row hstatement => ?_
    rw [hstatement] at hmay
    obtain ⟨-, task, hcall⟩ := hmay
    exact hadd task hcall
  exact Program.run_kept TaskQueue.execute (fun _ _ hadds hstore => hstore.execute hadds) hwithin
    hsound

theorem Sound.operate (hsound : Sound world) (operation : Operation)
    (hunused : AnswersUnused world operation) : Sound (operate world operation) := by
  cases operation with
  | call call =>
      cases call with
      | add task =>
          have hfresh := hunused task.taskId rfl
          have hstore : TaskQueue.operate world (.call (.add task)) =
              ((add task).run TaskQueue.execute world).2 :=
            Program.run_bind_done_store TaskQueue.execute (add task) Answer.text world
          rw [hstore]
          rcases add_run_store task world with hsame | ⟨row, tasks, hjoins, hinsert, hafter⟩
          · rw [hsame]
            exact hsound
          · rw [hafter]
            have hid : row.id = task.taskId := by
              obtain ⟨_, _, -, -, -, rfl⟩ := hjoins.exists_row
              rfl
            have hnamed : row.id ≠ "" := by
              rw [hid]
              exact hfresh.1
            exact hsound.of_insert rfl hinsert (hjoins.mayJoin hsound.named hfresh) hnamed
      | _ => exact hsound.run fun task hcall => by cases hcall
  | startCaseRound caseId roundId rootTaskId now =>
      rw [TaskQueue.operate]
      split
      case h_1 => exact hsound
      case h_2 started after hstart =>
        have hfresh := hunused rootTaskId rfl
        obtain ⟨text, description, hcases, hregistered, hinsert⟩ := exists_rootTask hstart
        exact hsound.of_insert hcases hinsert (mayJoin_rootTask hregistered hfresh) hfresh.1
  | repairActiveOrphans =>
      exact hsound.of_comesFrom (comesFrom_deleteWhere _) fun _ hcase => hcase
  | compactHistory keepRecent limit =>
      exact hsound.of_comesFrom (comesFrom_compactHistory keepRecent limit) fun _ hcase => hcase
  | compactCompletedResults olderThanDays keepAncestorDepth limit now =>
      rw [TaskQueue.operate]
      split
      case h_1 => exact hsound
      case h_2 count tasks hcompact =>
        exact hsound.of_comesFrom (comesFrom_compactCompletedResults hcompact) fun _ hcase => hcase

theorem sound_empty (cases : CaseTable) (reviews : List HumanReview) :
    Sound (World.empty cases reviews) := by
  have hnone : ∀ row, row ∉ (World.empty cases reviews).tasks.rows := fun _ =>
    List.not_mem_nil
  refine ⟨⟨?_, ?_, ?_⟩, ?_⟩
  · exact fun child hchild => absurd hchild (hnone child)
  · exact fun row hrow => absurd hrow (hnone row)
  · exact fun row hrow => absurd hrow (hnone row)
  · exact fun row hrow => absurd hrow (hnone row)

/-- Every run from a store without tasks keeps the bindings. -/
theorem casesInherited {cases : CaseTable} {reviews : List HumanReview}
    {operations : List Operation}
    (hunused : Permitted operate AnswersUnused (World.empty cases reviews) operations) :
    CasesInherited (run operate (World.empty cases reviews) operations) := by
  have hsound : Sound (run operate (World.empty cases reviews) operations) :=
    hunused.invariant Sound (sound_empty cases reviews)
      fun _ operation hworld hpermits => hworld.operate operation hpermits
  exact hsound.inherited

end Runs

/-- A parent and its child are worked on, and a registered case begins a round. -/
def Sample.roundOperations : List Operation :=
  [.call (.add (Sample.task "task-1" none false)),
    .call (.add (Sample.task "task-2" (some "task-1") false)),
    .call (.claim "worker-1" none Sample.noon),
    .call (.finish "worker-1" "task-1" (some (.ok "done")) Sample.later),
    .compactHistory 1 10,
    .repairActiveOrphans,
    .call (.registerResearchCase ResearchCaseRegistry.Sample.first),
    .startCaseRound (.text "case-1") "round-1" "task-3" Sample.later]

theorem casesInherited_roundOperations :
    CasesInherited (run operate (World.empty Table.empty []) Sample.roundOperations) :=
  casesInherited (by decide +kernel)

end AegisForge.Shared.TaskQueue
