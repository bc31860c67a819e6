import Mathlib.Data.List.Find
import AegisForge.Core.Table
import AegisForge.Core.ParentChain
import AegisForge.Core.RaisesOnly
import AegisForge.Shared.ResearchCaseBundle

/-!
# The parents of the tasks of a bundle

`_validate_task_parent_graph` accepts the task forests of its input and no other list.
-/

namespace AegisForge.Shared.TaskParentGraph

open AegisForge.Core ResearchCaseBundle

/-- The task that another one names as its parent. -/
def parentTask (tasks : List Record) (task : Record) : Option Record :=
  (task.get "parent_task_id").text?.bind (taskOf? tasks)

/-- Tasks with ids that are distinct, whose parents are tasks of their round, and whose
chains of parents end in roots. -/
structure IsTaskForest (tasks : List Record) : Prop where
  ids : ∀ task ∈ tasks, ∃ id, (task.get "id").text? = some id ∧ id ≠ ""
  distinct : (tasks.map fun task => (task.get "id").text?).Nodup
  parents : ∀ task ∈ tasks, (task.get "parent_task_id").isNull = false →
    ∃ id, (task.get "parent_task_id").text? = some id ∧ ∃ parent ∈ tasks,
      (parent.get "id").text? = some id ∧
        (task.get "round_id").equal (parent.get "round_id") = true
  roots : ∀ task ∈ tasks, ReachesRoot (parentTask tasks) task

/-! ## Links -/

/-- The link of a task with a text as id. -/
def linkOf (task : Record) : TaskLink where
  id := (task.get "id").text?.getD ""
  parent := (task.get "parent_task_id").text?
  roundId := task.get "round_id"

/-- `parents.get(id)`. -/
def parentId (links : List TaskLink) (id : String) : Option String :=
  (linkOf? links id).bind TaskLink.parent

theorem text?_of_isNull {cell : Cell} (hnull : cell.isNull = true) : cell.text? = none := by
  rcases cell with (_ | _ | _ | _ | _ | _ | _) | _ <;> first | rfl | cases hnull

theorem parentOf_eq_ok_iff {task : Record} {parent : Option String} :
    parentOf task = .ok parent ↔
      parent = (task.get "parent_task_id").text? ∧
        ((task.get "parent_task_id").isNull = false →
          ∃ id, (task.get "parent_task_id").text? = some id) := by
  rw [parentOf]
  split
  case isTrue hnull => simp [text?_of_isNull hnull, hnull, pure, Except.pure, eq_comm]
  case isFalse hnull =>
      rw [Bool.not_eq_true] at hnull
      rw [orRaise_bind_eq_ok_iff, imp_iff_right hnull]
      constructor
      · rintro ⟨id, hid, hparent⟩
        exact ⟨(Except.ok.inj hparent).symm.trans hid.symm, id, hid⟩
      · rintro ⟨rfl, id, hid⟩
        exact ⟨id, hid, hid ▸ rfl⟩

theorem taskId?_eq_some_iff {seen : List String} {task : Record} {id : String} :
    taskId? seen task = some id ↔
      (task.get "id").text? = some id ∧ id ≠ "" ∧ id ∉ seen := by
  rw [taskId?, Option.filter_eq_some_iff, Bool.and_eq_true, decide_eq_true_eq, decide_eq_true_eq]

theorem taskLinks_eq_ok_iff {tasks : List Record} {seen : List String}
    {links : List TaskLink} :
    taskLinks seen tasks = .ok links ↔ links = tasks.map linkOf ∧
      (∀ task ∈ tasks, ∃ id, (task.get "id").text? = some id ∧ id ≠ "" ∧ id ∉ seen) ∧
        (tasks.map fun task => (task.get "id").text?).Nodup ∧
          ∀ task ∈ tasks, (task.get "parent_task_id").isNull = false →
            ∃ id, (task.get "parent_task_id").text? = some id := by
  induction tasks generalizing seen links with
  | nil =>
      simp only [List.not_mem_nil, false_imp_iff, implies_true, List.map_nil, List.nodup_nil,
        and_true]
      exact ⟨fun hlinks => (Except.ok.inj hlinks).symm, fun hlinks => hlinks ▸ rfl⟩
  | cons task rest ih =>
      rw [taskLinks, orRaise_bind_eq_ok_iff, List.forall_mem_cons, List.forall_mem_cons,
        List.map_cons, List.map_cons, List.nodup_cons]
      constructor
      · rintro ⟨id, htaskId, hrest⟩
        obtain ⟨hid, hfilled, hseen⟩ := taskId?_eq_some_iff.mp htaskId
        obtain ⟨_, hparentOf, hothers⟩ := bind_eq_ok hrest
        obtain ⟨rfl, hparent⟩ := parentOf_eq_ok_iff.mp hparentOf
        obtain ⟨_, hothers, hlinks⟩ := bind_eq_ok hothers
        obtain ⟨rfl, hids, hnodup, hparents⟩ := ih.mp hothers
        refine ⟨?_, ⟨⟨id, hid, hfilled, hseen⟩, fun other hother => ?_⟩, ⟨?_, hnodup⟩,
          hparent, hparents⟩
        · rw [← Except.ok.inj hlinks, linkOf, hid, Option.getD_some]
        · obtain ⟨otherId, hotherId, hotherFilled, hothers⟩ := hids other hother
          exact ⟨otherId, hotherId, hotherFilled, fun hmem =>
            hothers (List.mem_cons_of_mem _ hmem)⟩
        · intro hmem
          obtain ⟨other, hother, hsame⟩ := List.mem_map.mp hmem
          obtain ⟨otherId, hotherId, -, hothers⟩ := hids other hother
          obtain rfl := Option.some.inj (hotherId.symm.trans (hsame.trans hid))
          exact hothers List.mem_cons_self
      · rintro ⟨rfl, ⟨⟨id, hid, hfilled, hseen⟩, hids⟩, ⟨hnew, hnodup⟩, hparent, hparents⟩
        refine ⟨id, taskId?_eq_some_iff.mpr ⟨hid, hfilled, hseen⟩, bind_eq_ok_iff.mpr
          ⟨_, parentOf_eq_ok_iff.mpr ⟨rfl, hparent⟩, bind_eq_ok_iff.mpr ⟨rest.map linkOf,
            ih.mpr ⟨rfl, fun other hother => ?_, hnodup, hparents⟩, ?_⟩⟩⟩
        · obtain ⟨otherId, hotherId, hotherFilled, hothers⟩ := hids other hother
          refine ⟨otherId, hotherId, hotherFilled, fun hmem => ?_⟩
          rcases List.mem_cons.mp hmem with rfl | hmem
          · exact hnew (List.mem_map.mpr ⟨other, hother, hotherId.trans hid.symm⟩)
          · exact hothers hmem
        · rw [linkOf, hid, Option.getD_some]
          rfl

/-! ## Parents -/

section Forests

variable {tasks : List Record}
  (hids : ∀ task ∈ tasks, ∃ id, (task.get "id").text? = some id ∧ id ≠ "")
  (hdistinct : (tasks.map fun task => (task.get "id").text?).Nodup)

include hids in
theorem text?_id {task : Record} (htask : task ∈ tasks) :
    (task.get "id").text? = some (linkOf task).id := by
  obtain ⟨id, hid, -⟩ := hids task htask
  rw [linkOf, hid, Option.getD_some]

include hdistinct in
theorem taskOf?_eq_some_iff {task : Record} {id : String} :
    taskOf? tasks id = some task ↔ task ∈ tasks ∧ (task.get "id").text? = some id := by
  constructor
  · intro hfound
    exact ⟨List.mem_of_find?_eq_some hfound, by simpa using List.find?_some hfound⟩
  · rintro ⟨htask, hid⟩
    rw [taskOf?, ← Table.find?_of_nodup hdistinct htask]
    refine List.find?_congr fun other _ => ?_
    rw [hid]

include hids in
theorem linkOf?_map {id : String} :
    linkOf? (tasks.map linkOf) id = (taskOf? tasks id).map linkOf := by
  rw [linkOf?, taskOf?, List.find?_map]
  congr 1
  refine List.find?_congr fun task htask => ?_
  rw [Function.comp_apply, text?_id hids htask]
  simp

include hids hdistinct in
/-- The parent's id is what the record of a task names. -/
theorem parentId_linkOf {task : Record} (htask : task ∈ tasks) :
    parentId (tasks.map linkOf) (linkOf task).id = (task.get "parent_task_id").text? := by
  have hfound := (taskOf?_eq_some_iff hdistinct).mpr ⟨htask, text?_id hids htask⟩
  rw [parentId, linkOf?_map hids, hfound]
  rfl

theorem mem_of_parentTask {task parent : Record} (hparent : parentTask tasks task = some parent) :
    parent ∈ tasks := by
  obtain ⟨id, -, hfound⟩ := Option.bind_eq_some_iff.mp hparent
  exact List.mem_of_find?_eq_some hfound

include hids hdistinct in
theorem checkParent_linkOf_iff {task : Record} :
    checkParent (tasks.map linkOf) (linkOf task) = .ok ⟨⟩ ↔
      ∀ id, (task.get "parent_task_id").text? = some id → ∃ parent ∈ tasks,
        (parent.get "id").text? = some id ∧
          (task.get "round_id").equal (parent.get "round_id") = true := by
  have hparent : (linkOf task).parent = (task.get "parent_task_id").text? := rfl
  rw [checkParent, hparent]
  cases htext : (task.get "parent_task_id").text? with
  | none => simp [pure, Except.pure]
  | some id =>
      dsimp only
      rw [orRaise_bind_eq_ok_iff, linkOf?_map hids]
      constructor
      · rintro ⟨_, hfound, hround⟩ _ ⟨⟩
        obtain ⟨parent, hlookup, rfl⟩ := Option.map_eq_some_iff.mp hfound
        obtain ⟨hmem, hid⟩ := (taskOf?_eq_some_iff hdistinct).mp hlookup
        exact ⟨parent, hmem, hid, raiseUnless_eq_ok hround⟩
      · intro hnamed
        obtain ⟨parent, hmem, hid, hround⟩ := hnamed id rfl
        refine ⟨linkOf parent, ?_, if_pos hround⟩
        rw [(taskOf?_eq_some_iff hdistinct).mpr ⟨hmem, hid⟩, Option.map_some]

end Forests

/-! ## Walks -/

section Walking

variable {links : List TaskLink} {finished : List String}
  (hclosed : ∀ link ∈ links, ∀ id, parentId links link.id = some id →
    id ∈ links.map TaskLink.id)

include hclosed in
/-- The bound on the walk is never the reason that it ends: the walk answers what a walk
without bound does. -/
theorem walks_walk {fuel : ℕ} {path : List String} {current : Option String}
    (hnodup : path.Nodup) (hpath : path ⊆ links.map TaskLink.id)
    (hfuel : path.length + fuel = links.length)
    (hcurrent : ∀ id, current = some id → id ∈ links.map TaskLink.id) :
    Walks (parentId links) finished path current (walk links finished fuel path current).toOption := by
  induction fuel generalizing path current with
  | zero =>
      cases current with
      | none => exact Walks.root
      | some id =>
          rw [walk]
          split
          case isTrue hfinished => exact Walks.finished hfinished
          case isFalse hfinished =>
              refine Walks.cycle hfinished ?_
              have hperm : path.Perm (links.map TaskLink.id) :=
                (List.subperm_of_subset hnodup hpath).perm_of_length_le (by simp [← hfuel])
              exact hperm.mem_iff.mpr (hcurrent id rfl)
  | succ fuel ih =>
      cases current with
      | none => exact Walks.root
      | some id =>
          rw [walk]
          split
          case isTrue hfinished => exact Walks.finished hfinished
          case isFalse hfinished =>
              split
              case isTrue hcycle => exact Walks.cycle hfinished hcycle
              case isFalse hnew =>
                  refine Walks.step hfinished hnew (ih (List.nodup_cons.mpr ⟨hnew, hnodup⟩)
                    (List.cons_subset.mpr ⟨hcurrent id rfl, hpath⟩) ?_ ?_)
                  · rw [List.length_cons, ← hfuel]
                    ring
                  · intro above habove
                    obtain ⟨link, hlink, rfl⟩ := List.mem_map.mp (hcurrent id rfl)
                    exact hclosed link hlink above habove

include hclosed in
theorem walks_of_mem (finished : List String) {link : TaskLink} (hlink : link ∈ links) :
    Walks (parentId links) finished [] (some link.id)
      (walk links finished links.length [] (some link.id)).toOption := by
  refine walks_walk hclosed List.nodup_nil (List.nil_subset _) (Nat.zero_add _) ?_
  rintro id ⟨⟩
  exact List.mem_map_of_mem hlink

include hclosed in
/-- The walks from all links find no cycle exactly if all chains end in roots. -/
theorem walkAll_eq_ok_iff {starts : List TaskLink} (hstarts : starts ⊆ links)
    (hfinished : ∀ id ∈ finished, ReachesRoot (parentId links) id) :
    walkAll links finished starts = .ok ⟨⟩ ↔
      ∀ link ∈ starts, ReachesRoot (parentId links) link.id := by
  induction starts generalizing finished with
  | nil => simp [walkAll, pure, Except.pure]
  | cons link rest ih =>
      obtain ⟨hlink, hrest⟩ := List.cons_subset.mp hstarts
      rw [walkAll, bind_eq_ok_iff, List.forall_mem_cons]
      have hwalks := walks_of_mem hclosed finished hlink
      constructor
      · rintro ⟨path, hpath, hothers⟩
        rw [hpath] at hwalks
        have hwalked := Walks.reachesRoot hwalks hfinished fun _ _ hmem => by cases hmem
        have hall : ∀ id ∈ path ++ finished, ReachesRoot (parentId links) id := by
          intro id hid
          rcases List.mem_append.mp hid with hid | hid
          · exact hwalked id hid
          · exact hfinished id hid
        refine ⟨?_, (ih hrest hall).mp hothers⟩
        rcases hwalks.start_mem with hmem | hmem
        · exact hfinished _ hmem
        · exact hwalked _ hmem
      · rintro ⟨hroot, hroots⟩
        have hsome := hwalks.isSome (by rintro _ ⟨⟩; exact hroot) fun _ _ _ hmem => by cases hmem
        cases hpath : walk links finished links.length [] (some link.id) with
        | error error =>
            rw [hpath] at hsome
            cases hsome
        | ok path =>
            rw [hpath] at hwalks
            have hwalked := Walks.reachesRoot hwalks hfinished fun _ _ hmem => by cases hmem
            refine ⟨path, rfl, (ih hrest fun id hid => ?_).mpr hroots⟩
            rcases List.mem_append.mp hid with hid | hid
            · exact hwalked id hid
            · exact hfinished id hid

end Walking

/-! ## The graph -/

theorem mapM_checkParent_iff {links starts : List TaskLink} :
    (∃ checked, starts.mapM (checkParent links) = .ok checked) ↔
      ∀ link ∈ starts, checkParent links link = .ok ⟨⟩ := by
  rw [exists_mapM_eq_ok_iff]
  refine forall₂_congr fun link _ => ⟨?_, fun hchecked => ⟨_, hchecked⟩⟩
  rintro ⟨_, hchecked⟩
  exact hchecked

/-- Parents that passed their checks are among the links. -/
theorem mem_of_checkParent {links : List TaskLink}
    (hchecked : ∀ link ∈ links, checkParent links link = .ok ⟨⟩) :
    ∀ link ∈ links, ∀ id, parentId links link.id = some id → id ∈ links.map TaskLink.id := by
  intro link _ id hparent
  obtain ⟨child, hchild, hnamed⟩ := Option.bind_eq_some_iff.mp hparent
  have hcheck := hchecked child (List.mem_of_find?_eq_some hchild)
  rw [checkParent, hnamed] at hcheck
  obtain ⟨parent, hfound, -⟩ := orRaise_bind_eq_ok hcheck
  refine List.mem_map.mpr ⟨parent, List.mem_of_find?_eq_some hfound, ?_⟩
  simpa using List.find?_some hfound

/-- The chains of the ids are the chains of the tasks. -/
theorem reachesRoot_linkOf_iff {tasks : List Record}
    (hids : ∀ task ∈ tasks, ∃ id, (task.get "id").text? = some id ∧ id ≠ "")
    (hdistinct : (tasks.map fun task => (task.get "id").text?).Nodup)
    (hparents : ∀ task ∈ tasks, ∀ id, (task.get "parent_task_id").text? = some id →
      ∃ parent ∈ tasks, (parent.get "id").text? = some id)
    {task : Record} (htask : task ∈ tasks) :
    ReachesRoot (parentId (tasks.map linkOf)) (linkOf task).id ↔
      ReachesRoot (parentTask tasks) task := by
  refine reachesRoot_map_iff (fun task => (linkOf task).id) (· ∈ tasks)
    (fun task htask => ?_) (fun task parent _ hparent => mem_of_parentTask hparent) htask
  rw [parentId_linkOf hids hdistinct htask, parentTask]
  cases htext : (task.get "parent_task_id").text? with
  | none => rfl
  | some id =>
      obtain ⟨parent, hmem, hid⟩ := hparents task htask id htext
      rw [Option.bind_some, (taskOf?_eq_some_iff hdistinct).mpr ⟨hmem, hid⟩, Option.map_some,
        linkOf, hid, Option.getD_some]

theorem isTaskForest_of_validate {tasks : List Record} {ids : List String}
    (hvalid : validateTaskParentGraph tasks = .ok ids) : IsTaskForest tasks := by
  obtain ⟨links, hlinks, hchecks⟩ := bind_eq_ok hvalid
  obtain ⟨checked, hmapped, hwalks⟩ := bind_eq_ok hchecks
  obtain ⟨_, hwalked, -⟩ := bind_eq_ok hwalks
  obtain ⟨rfl, hids, hdistinct, htexts⟩ := taskLinks_eq_ok_iff.mp hlinks
  have hids : ∀ task ∈ tasks, ∃ id, (task.get "id").text? = some id ∧ id ≠ "" := by
    intro task htask
    obtain ⟨id, hid, hfilled, -⟩ := hids task htask
    exact ⟨id, hid, hfilled⟩
  have hchecked := mapM_checkParent_iff.mp ⟨checked, hmapped⟩
  have hparents : ∀ task ∈ tasks, ∀ id, (task.get "parent_task_id").text? = some id →
      ∃ parent ∈ tasks, (parent.get "id").text? = some id ∧
        (task.get "round_id").equal (parent.get "round_id") = true := fun task htask =>
    (checkParent_linkOf_iff hids hdistinct).mp (hchecked _ (List.mem_map_of_mem htask))
  have hroots := (walkAll_eq_ok_iff (mem_of_checkParent hchecked) (List.Subset.refl _)
    fun _ hmem => by cases hmem).mp hwalked
  refine ⟨hids, hdistinct, fun task htask hnull => ?_, fun task htask => ?_⟩
  · obtain ⟨id, hid⟩ := htexts task htask hnull
    exact ⟨id, hid, hparents task htask id hid⟩
  · refine (reachesRoot_linkOf_iff hids hdistinct (fun task htask id hid => ?_) htask).mp
      (hroots _ (List.mem_map_of_mem htask))
    obtain ⟨parent, hparent, hparentId, -⟩ := hparents task htask id hid
    exact ⟨parent, hparent, hparentId⟩

theorem validate_of_isTaskForest {tasks : List Record} (hforest : IsTaskForest tasks) :
    ∃ ids, validateTaskParentGraph tasks = .ok ids := by
  obtain ⟨hids, hdistinct, hparents, hroots⟩ := hforest
  have hnamed : ∀ task ∈ tasks, ∀ id, (task.get "parent_task_id").text? = some id →
      ∃ parent ∈ tasks, (parent.get "id").text? = some id ∧
        (task.get "round_id").equal (parent.get "round_id") = true := by
    intro task htask id hid
    have hnull : (task.get "parent_task_id").isNull = false := by
      rw [← Bool.not_eq_true]
      intro hnull
      cases (text?_of_isNull hnull).symm.trans hid
    obtain ⟨named, htext, hparent⟩ := hparents task htask hnull
    obtain rfl := Option.some.inj (htext.symm.trans hid)
    exact hparent
  have hlinks : taskLinks [] tasks = .ok (tasks.map linkOf) := by
    refine taskLinks_eq_ok_iff.mpr ⟨rfl, fun task htask => ?_, hdistinct, ?_⟩
    · obtain ⟨id, hid, hfilled⟩ := hids task htask
      exact ⟨id, hid, hfilled, List.not_mem_nil⟩
    · intro task htask hnull
      obtain ⟨id, hid, -⟩ := hparents task htask hnull
      exact ⟨id, hid⟩
  have hchecked : ∀ link ∈ tasks.map linkOf,
      checkParent (tasks.map linkOf) link = .ok ⟨⟩ := by
    refine List.forall_mem_map.mpr fun task htask => ?_
    exact (checkParent_linkOf_iff hids hdistinct).mpr (hnamed task htask)
  obtain ⟨checked, hmapped⟩ := mapM_checkParent_iff.mpr hchecked
  have hwalked : walkAll (tasks.map linkOf) [] (tasks.map linkOf) = .ok ⟨⟩ := by
    refine (walkAll_eq_ok_iff (mem_of_checkParent hchecked) (List.Subset.refl _)
      fun _ hmem => by cases hmem).mpr ?_
    refine List.forall_mem_map.mpr fun task htask => ?_
    refine (reachesRoot_linkOf_iff hids hdistinct (fun task htask id hid => ?_) htask).mpr
      (hroots task htask)
    obtain ⟨parent, hparent, hparentId, -⟩ := hnamed task htask id hid
    exact ⟨parent, hparent, hparentId⟩
  refine ⟨_, bind_eq_ok_iff.mpr ⟨_, hlinks, bind_eq_ok_iff.mpr ⟨checked, hmapped,
    bind_eq_ok_iff.mpr ⟨⟨⟩, hwalked, rfl⟩⟩⟩⟩

/-- A list of tasks is accepted exactly if it is a forest, and every walk ends on its own:
it answers what the same walk without a bound does. -/
theorem validateTaskParentGraph_iff (tasks : List Record) :
    ((∃ ids, validateTaskParentGraph tasks = .ok ids) ↔ IsTaskForest tasks) ∧
      ∀ links, taskLinks [] tasks = .ok links →
        (∀ link ∈ links, checkParent links link = .ok ⟨⟩) → ∀ finished, ∀ link ∈ links,
          Walks (parentId links) finished [] (some link.id)
            (walk links finished links.length [] (some link.id)).toOption := by
  refine ⟨⟨?_, validate_of_isTaskForest⟩, ?_⟩
  · rintro ⟨ids, hvalid⟩
    exact isTaskForest_of_validate hvalid
  · intro links _ hchecked finished link hlink
    exact walks_of_mem (mem_of_checkParent hchecked) finished hlink

end AegisForge.Shared.TaskParentGraph
