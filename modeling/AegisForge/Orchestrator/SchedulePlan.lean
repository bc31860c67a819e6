import Mathlib.Algebra.GroupWithZero.Nat
import AegisForge.Orchestrator.TaskGraph

/-!
# Schedule plans

Which nodes a graph admits at given statuses: one pass over the stored order, which
blocks what depends on a failure and admits what the budgets still allow.
-/

namespace AegisForge.Orchestrator

open AegisForge.Core AegisForge.Shared

/-! ## Planning -/

structure SchedulePlan where
  ready : List Name
  blocked : List Name
  waiting : List Name
  runningCount : ℕ
  runningResourceUnits : ℕ
  deriving DecidableEq

/-- `isinstance(statuses, Mapping)`, with the entries; `None` has none. -/
def StatusesArgument.entries? : StatusesArgument → Option (List (StatusKey × StatusValue))
  | none => some []
  | mapping entries => some entries
  | other => Option.none

/-- `_status`. -/
def readStatus (value : StatusValue) (nodeId : Name) : Except Raised ExecutionStatus :=
  match value with
  | .status status => .ok status
  | .text text =>
      orRaise
        (taskGraphError s!"task '{nodeId.val}' has unknown execution status {text.shown}")
        (ExecutionStatus.of? text.value)
  | .other =>
      .error (taskGraphError s!"task '{nodeId.val}' execution status must be a valid string")

/-- The status of a node in a mapping, where a missing one is `PENDING`. -/
def nodeStatus (entries : List (StatusKey × StatusValue)) (nodeId : Name) :
    Except Raised ExecutionStatus :=
  readStatus (((entries.find? fun entry => entry.1 = .text nodeId.val).map Prod.snd).getD
    (.status .pending)) nodeId

/-- `normalized`. -/
def normalize (entries : List (StatusKey × StatusValue)) :
    List TaskNode → Except Raised (List (Name × ExecutionStatus))
  | [] => .ok []
  | node :: rest => do
      let status ← nodeStatus entries node.nodeId
      let normalized ← normalize entries rest
      return (node.nodeId, status) :: normalized

/-- `normalized[node_id]`. -/
def statusIn (normalized : List (Name × ExecutionStatus)) (nodeId : Name) : ExecutionStatus :=
  ((normalized.find? fun entry => entry.1 = nodeId).map Prod.snd).getD .pending

/-- A node may run or have succeeded only after all that it depends on. -/
def checkStatuses (status : Name → ExecutionStatus) : List TaskNode → Except Raised Unit
  | [] => .ok ()
  | node :: rest => do
      raiseUnless
        (status node.nodeId ∈ [ExecutionStatus.running, .succeeded] →
          ∀ dependency ∈ node.dependencies, status dependency = .succeeded)
        (taskGraphError (s!"task '{node.nodeId.val}' cannot be RUNNING or SUCCEEDED before " ++
          "all dependencies succeed"))
      checkStatuses status rest

/-- The lists and the budgets during the pass.  The blocked set holds what is listed as
blocked. -/
structure Admission where
  ready : List Name := []
  blocked : List Name := []
  waiting : List Name := []
  freeSlots : ℕ
  freeResources : ℕ

namespace TaskGraph

variable (graph : TaskGraph) (status : Name → ExecutionStatus)

def DependsOnFailure (blocked : List Name) (nodeId : Name) : Prop :=
  ∃ dependency ∈ graph.dependencies nodeId,
    (status dependency).isTerminalFailure = true ∨ dependency ∈ blocked

instance (blocked : List Name) (nodeId : Name) :
    Decidable (graph.DependsOnFailure status blocked nodeId) :=
  inferInstanceAs (Decidable (∃ dependency ∈ graph.dependencies nodeId, _))

def DependenciesSucceeded (nodeId : Name) : Prop :=
  ∀ dependency ∈ graph.dependencies nodeId, status dependency = .succeeded

instance (nodeId : Name) : Decidable (graph.DependenciesSucceeded status nodeId) :=
  inferInstanceAs (Decidable (∀ dependency ∈ graph.dependencies nodeId, _))

/-- One turn of the pass. -/
def consider (admission : Admission) (nodeId : Name) : Admission :=
  if status nodeId ≠ .pending then admission
  else if graph.DependsOnFailure status admission.blocked nodeId then
    { admission with blocked := admission.blocked ++ [nodeId] }
  else if ¬graph.DependenciesSucceeded status nodeId then
    { admission with waiting := admission.waiting ++ [nodeId] }
  else if 0 < admission.freeSlots ∧ graph.resourceUnits nodeId ≤ admission.freeResources then
    { admission with
      ready := admission.ready ++ [nodeId]
      freeSlots := admission.freeSlots - 1
      freeResources := admission.freeResources - graph.resourceUnits nodeId }
  else { admission with waiting := admission.waiting ++ [nodeId] }

/-- The running nodes. -/
def running : List TaskNode := graph.nodes.filter fun node => status node.nodeId = .running

def runningUnits : ℕ := ((graph.running status).map TaskNode.resourceUnits).sum

/-- The pass over the order. -/
def admissions (slots resources : ℕ) (order : List Name) : Admission :=
  order.foldl (graph.consider status) { freeSlots := slots, freeResources := resources }

/-- The plan at normalized statuses. -/
def decision : SchedulePlan :=
  let admission := graph.admissions status
    (graph.maxParallelism - (graph.running status).length)
    (graph.maxResourceUnits - graph.runningUnits status) graph.order
  {
    ready := admission.ready
    blocked := admission.blocked
    waiting := admission.waiting
    runningCount := (graph.running status).length
    runningResourceUnits := graph.runningUnits status
  }

/-- `plan`. -/
def plan (statuses : StatusesArgument) : Except Raised SchedulePlan := do
  let entries ← orRaise (taskGraphError "statuses must be a mapping") statuses.entries?
  let unknown := sorted (((entries.map Prod.fst).filter fun key =>
    key ∉ graph.nodeIds.map fun nodeId => StatusKey.text nodeId.val).map StatusKey.shown)
  let names := ", ".intercalate unknown
  raiseUnless (unknown = []) (taskGraphError s!"statuses contain unknown task IDs: {names}")
  let normalized ← normalize entries graph.nodes
  let status := statusIn normalized
  checkStatuses status graph.nodes
  raiseUnless ((graph.running status).length ≤ graph.maxParallelism)
    (taskGraphError "running tasks exceed max_parallelism")
  raiseUnless (graph.runningUnits status ≤ graph.maxResourceUnits)
    (taskGraphError "running tasks exceed max_resource_units")
  return graph.decision status

/-- `retry_allowed`. -/
def retryAllowed (nodeId : ReprText) (attemptsUsed : PyValue) (lastStatus : StatusValue) :
    Except Raised Bool := do
  let node ← orRaise (taskGraphError s!"unknown task ID {nodeId.shown}")
    (graph.nodes.find? fun node => node.nodeId.val = nodeId.value)
  let attempts ← orRaise (taskGraphError "attempts_used must be a positive integer")
    (positive? attemptsUsed)
  let status ← readStatus lastStatus node.nodeId
  return status.isRetryable && attempts.1 < node.maxAttempts

/-! ## What the pass decides -/

theorem consider_cases (admission : Admission) (nodeId : Name) :
    (status nodeId ≠ .pending ∧ graph.consider status admission nodeId = admission) ∨
    (status nodeId = .pending ∧ graph.DependsOnFailure status admission.blocked nodeId ∧
      graph.consider status admission nodeId =
        { admission with blocked := admission.blocked ++ [nodeId] }) ∨
    (status nodeId = .pending ∧ ¬graph.DependsOnFailure status admission.blocked nodeId ∧
      (graph.DependenciesSucceeded status nodeId →
        ¬(0 < admission.freeSlots ∧ graph.resourceUnits nodeId ≤ admission.freeResources)) ∧
      graph.consider status admission nodeId =
        { admission with waiting := admission.waiting ++ [nodeId] }) ∨
    (status nodeId = .pending ∧ ¬graph.DependsOnFailure status admission.blocked nodeId ∧
      graph.DependenciesSucceeded status nodeId ∧ 0 < admission.freeSlots ∧
      graph.resourceUnits nodeId ≤ admission.freeResources ∧
      graph.consider status admission nodeId =
        { admission with
          ready := admission.ready ++ [nodeId]
          freeSlots := admission.freeSlots - 1
          freeResources := admission.freeResources - graph.resourceUnits nodeId }) := by
  unfold consider
  by_cases hpending : status nodeId = .pending
  case neg => exact .inl ⟨hpending, if_pos hpending⟩
  rw [if_neg (not_not_intro hpending)]
  by_cases hfailure : graph.DependsOnFailure status admission.blocked nodeId
  case pos => exact .inr (.inl ⟨hpending, hfailure, if_pos hfailure⟩)
  rw [if_neg hfailure]
  by_cases hsucceeded : graph.DependenciesSucceeded status nodeId
  case neg =>
    rw [if_pos hsucceeded]
    exact .inr (.inr (.inl ⟨hpending, hfailure, fun hall => absurd hall hsucceeded, rfl⟩))
  rw [if_neg (not_not_intro hsucceeded)]
  by_cases hfits : 0 < admission.freeSlots ∧
      graph.resourceUnits nodeId ≤ admission.freeResources
  case pos =>
    rw [if_pos hfits]
    exact .inr (.inr (.inr ⟨hpending, hfailure, hsucceeded, hfits.1, hfits.2, rfl⟩))
  case neg =>
    rw [if_neg hfits]
    exact .inr (.inr (.inl ⟨hpending, hfailure, fun _ => hfits, rfl⟩))

variable {graph status} {slots resources : ℕ} {processed : List Name} {admission : Admission}
variable {nodeId : Name}

/-- What the pass has decided once it processed a part of the order. -/
structure Decides (graph : TaskGraph) (status : Name → ExecutionStatus) (slots resources : ℕ)
    (processed : List Name) (admission : Admission) : Prop where
  partition : (admission.ready ++ admission.blocked ++ admission.waiting).Perm
    (processed.filter fun nodeId => status nodeId = .pending)
  blocked_iff : ∀ nodeId ∈ processed, nodeId ∈ admission.blocked ↔
    status nodeId = .pending ∧ graph.DependsOnFailure status admission.blocked nodeId
  ready_succeeded : ∀ nodeId ∈ admission.ready, graph.DependenciesSucceeded status nodeId
  slots_eq : admission.freeSlots + admission.ready.length = slots
  resources_eq :
    admission.freeResources + (admission.ready.map graph.resourceUnits).sum = resources
  admitted : admission.ready = [] → ∀ nodeId ∈ processed, status nodeId = .pending →
    graph.DependenciesSucceeded status nodeId →
      ¬(0 < slots ∧ graph.resourceUnits nodeId ≤ resources)

theorem Decides.start : Decides graph status slots resources []
    { freeSlots := slots, freeResources := resources } where
  partition := .refl []
  blocked_iff := by simp
  ready_succeeded := by simp
  slots_eq := rfl
  resources_eq := rfl
  admitted := by simp

theorem Decides.pending_of_blocked (hdecides : Decides graph status slots resources processed admission)
    (hblocked : nodeId ∈ admission.blocked) :
    nodeId ∈ processed ∧ status nodeId = .pending := by
  have hmem := hdecides.partition.subset
    (List.mem_append_left _ (List.mem_append_right _ hblocked))
  simpa using hmem

theorem Decides.not_dependsOnFailure
    (hdecides : Decides graph status slots resources processed admission)
    (hsucceeded : graph.DependenciesSucceeded status nodeId) :
    ¬graph.DependsOnFailure status admission.blocked nodeId := by
  rintro ⟨dependency, hdependency, hfailed | hblocked⟩
  · rw [hsucceeded dependency hdependency] at hfailed
    exact absurd hfailed (by decide)
  · have hpending := (hdecides.pending_of_blocked hblocked).2
    rw [hsucceeded dependency hdependency] at hpending
    exact absurd hpending (by decide)

/-- A node that is blocked later does not count for what was processed before. -/
theorem dependsOnFailure_concat {blocked : List Name} {later : Name}
    (hprocessed : ∀ dependency ∈ graph.dependencies nodeId, dependency ≠ later) :
    graph.DependsOnFailure status (blocked ++ [later]) nodeId ↔
      graph.DependsOnFailure status blocked nodeId := by
  apply exists_congr
  intro dependency
  apply and_congr_right
  intro hdependency
  rw [List.mem_append, List.mem_singleton, or_iff_left (hprocessed dependency hdependency)]

section Turn

variable (hdecides : Decides graph status slots resources processed admission)
  (horder : IsTopological graph.dependencies (processed ++ [nodeId])) (hnew : nodeId ∉ processed)

include hdecides hnew in
theorem Decides.not_blocked : nodeId ∉ admission.blocked := fun hblocked =>
  hnew (hdecides.pending_of_blocked hblocked).1

include hdecides hnew in
/-- A node that is not blocked leaves what is said about the blocked ones. -/
theorem Decides.blocked_iff_concat
    (hnode : ¬(status nodeId = .pending ∧
      graph.DependsOnFailure status admission.blocked nodeId)) :
    ∀ other ∈ processed ++ [nodeId], other ∈ admission.blocked ↔
      status other = .pending ∧ graph.DependsOnFailure status admission.blocked other := by
  rw [List.forall_mem_append]
  exact ⟨hdecides.blocked_iff, List.forall_mem_singleton.mpr
    (iff_of_false (hdecides.not_blocked hnew) hnode)⟩

include hdecides in
theorem Decides.admitted_concat
    (hnode : status nodeId = .pending → graph.DependenciesSucceeded status nodeId →
      admission.ready = [] → ¬(0 < slots ∧ graph.resourceUnits nodeId ≤ resources)) :
    admission.ready = [] → ∀ other ∈ processed ++ [nodeId], status other = .pending →
      graph.DependenciesSucceeded status other →
        ¬(0 < slots ∧ graph.resourceUnits other ≤ resources) := by
  intro hempty
  rw [List.forall_mem_append]
  exact ⟨hdecides.admitted hempty, List.forall_mem_singleton.mpr fun hpending hsucceeded =>
    hnode hpending hsucceeded hempty⟩

/-- A node that is pending joins one of the three lists. -/
theorem Decides.partition_concat {next : Admission}
    (hdecides : Decides graph status slots resources processed admission)
    (hpending : status nodeId = .pending)
    (hcount : ∀ other, next.ready.count other + next.blocked.count other +
        next.waiting.count other =
      admission.ready.count other + admission.blocked.count other +
        admission.waiting.count other + [nodeId].count other) :
    (next.ready ++ next.blocked ++ next.waiting).Perm
      ((processed ++ [nodeId]).filter fun other => status other = .pending) := by
  have hfilter : (processed ++ [nodeId]).filter (fun other => status other = .pending) =
      (processed.filter fun other => status other = .pending) ++ [nodeId] := by
    simp [hpending]
  rw [hfilter, List.perm_iff_count]
  intro other
  have hold := List.perm_iff_count.mp hdecides.partition other
  simp only [List.count_append] at hold ⊢
  rw [hcount other, hold]

include hdecides hnew in
theorem Decides.skip (hpending : status nodeId ≠ .pending) :
    Decides graph status slots resources (processed ++ [nodeId]) admission where
  partition := by
    have hfilter : (processed ++ [nodeId]).filter (fun other => status other = .pending) =
        processed.filter fun other => status other = .pending := by
      simp [hpending]
    rw [hfilter]
    exact hdecides.partition
  blocked_iff := hdecides.blocked_iff_concat hnew fun hboth => hpending hboth.1
  ready_succeeded := hdecides.ready_succeeded
  slots_eq := hdecides.slots_eq
  resources_eq := hdecides.resources_eq
  admitted := hdecides.admitted_concat fun hboth => absurd hboth hpending

include hdecides horder hnew in
theorem Decides.block (hpending : status nodeId = .pending)
    (hfailure : graph.DependsOnFailure status admission.blocked nodeId) :
    Decides graph status slots resources (processed ++ [nodeId])
      { admission with blocked := admission.blocked ++ [nodeId] } where
  partition := hdecides.partition_concat hpending fun other => by
    simp only [List.count_append]
    omega
  blocked_iff := by
    have hself : ∀ dependency ∈ graph.dependencies nodeId, dependency ≠ nodeId := by
      rintro dependency hdependency rfl
      exact hnew (horder.of_concat dependency hdependency)
    have hearlier : ∀ other ∈ processed, ∀ dependency ∈ graph.dependencies other,
        dependency ≠ nodeId := by
      rintro other hother dependency hdependency rfl
      exact hnew (horder.of_append.mem_dependency hother hdependency)
    rw [List.forall_mem_append, List.forall_mem_singleton]
    constructor
    · intro other hother
      have hne : other ≠ nodeId := fun heq => hnew (heq ▸ hother)
      rw [dependsOnFailure_concat (hearlier other hother), List.mem_append,
        List.mem_singleton, or_iff_left hne]
      exact hdecides.blocked_iff other hother
    · rw [dependsOnFailure_concat hself]
      exact iff_of_true List.mem_concat_self ⟨hpending, hfailure⟩
  ready_succeeded := hdecides.ready_succeeded
  slots_eq := hdecides.slots_eq
  resources_eq := hdecides.resources_eq
  admitted := hdecides.admitted_concat fun _ hsucceeded =>
    absurd hfailure (hdecides.not_dependsOnFailure hsucceeded)

include hdecides hnew in
theorem Decides.wait (hpending : status nodeId = .pending)
    (hfailure : ¬graph.DependsOnFailure status admission.blocked nodeId)
    (hfits : graph.DependenciesSucceeded status nodeId →
      ¬(0 < admission.freeSlots ∧ graph.resourceUnits nodeId ≤ admission.freeResources)) :
    Decides graph status slots resources (processed ++ [nodeId])
      { admission with waiting := admission.waiting ++ [nodeId] } where
  partition := hdecides.partition_concat hpending fun other => by
    simp only [List.count_append]
    omega
  blocked_iff := hdecides.blocked_iff_concat hnew fun hboth => hfailure hboth.2
  ready_succeeded := hdecides.ready_succeeded
  slots_eq := hdecides.slots_eq
  resources_eq := hdecides.resources_eq
  admitted := hdecides.admitted_concat fun _ hsucceeded hempty => by
    have hslots := hdecides.slots_eq
    have hresources := hdecides.resources_eq
    rw [hempty] at hslots hresources
    rw [← hslots, ← hresources]
    exact hfits hsucceeded

include hdecides hnew in
theorem Decides.ready (hpending : status nodeId = .pending)
    (hfailure : ¬graph.DependsOnFailure status admission.blocked nodeId)
    (hsucceeded : graph.DependenciesSucceeded status nodeId) (hslots : 0 < admission.freeSlots)
    (hresources : graph.resourceUnits nodeId ≤ admission.freeResources) :
    Decides graph status slots resources (processed ++ [nodeId])
      { admission with
        ready := admission.ready ++ [nodeId]
        freeSlots := admission.freeSlots - 1
        freeResources := admission.freeResources - graph.resourceUnits nodeId } where
  partition := hdecides.partition_concat hpending fun other => by
    simp only [List.count_append]
    omega
  blocked_iff := hdecides.blocked_iff_concat hnew fun hboth => hfailure hboth.2
  ready_succeeded := List.forall_mem_append.mpr
    ⟨hdecides.ready_succeeded, List.forall_mem_singleton.mpr hsucceeded⟩
  slots_eq := by
    have hold := hdecides.slots_eq
    simp only [List.length_append, List.length_singleton]
    omega
  resources_eq := by
    have hold := hdecides.resources_eq
    simp only [List.map_append, List.map_singleton, List.sum_append, List.sum_singleton]
    omega
  admitted := fun hempty => absurd hempty (List.concat_ne_nil _ _)

include hdecides horder hnew in
/-- One turn of the pass, for a node whose dependencies are processed. -/
theorem Decides.consider : Decides graph status slots resources (processed ++ [nodeId])
    (graph.consider status admission nodeId) := by
  rcases consider_cases graph status admission nodeId with
    ⟨hpending, heq⟩ | ⟨hpending, hfailure, heq⟩ | ⟨hpending, hfailure, hfits, heq⟩ |
    ⟨hpending, hfailure, hsucceeded, hslots, hresources, heq⟩
  all_goals rw [heq]
  · exact hdecides.skip hnew hpending
  · exact hdecides.block horder hnew hpending hfailure
  · exact hdecides.wait hnew hpending hfailure hfits
  · exact hdecides.ready hnew hpending hfailure hsucceeded hslots hresources

end Turn

/-- The pass over an order whose nodes come after their dependencies. -/
theorem decides_admissions {order : List Name} (horder : IsTopological graph.dependencies order)
    (hnodup : order.Nodup) :
    Decides graph status slots resources order
      (graph.admissions status slots resources order) := by
  induction order using List.reverseRecOn with
  | nil => exact Decides.start
  | append_singleton order nodeId ih =>
      have hnew : nodeId ∉ order := fun hmem =>
        (List.nodup_append.mp hnodup).2.2 nodeId hmem nodeId List.mem_cons_self rfl
      have hdecides := ih horder.of_append (List.nodup_append.mp hnodup).1
      have hlast := hdecides.consider horder hnew
      rw [admissions, List.foldl_append]
      exact hlast

/-! ## What a plan is accepted for -/

theorem status_of_normalize {entries : List (StatusKey × StatusValue)} {nodes : List TaskNode}
    {normalized : List (Name × ExecutionStatus)} (hok : normalize entries nodes = .ok normalized)
    (hnode : nodeId ∈ nodes.map TaskNode.nodeId) :
    nodeStatus entries nodeId = .ok (statusIn normalized nodeId) := by
  induction nodes generalizing normalized with
  | nil => exact absurd hnode List.not_mem_nil
  | cons first rest ih =>
      rw [normalize] at hok
      obtain ⟨status, hstatus, hok⟩ := bind_eq_ok hok
      obtain ⟨later, hlater, hok⟩ := bind_eq_ok hok
      obtain rfl := Except.ok.inj hok
      by_cases heq : first.nodeId = nodeId
      · rw [statusIn, List.find?_cons_of_pos (by simpa using heq), ← heq]
        exact hstatus
      · have hrest : nodeId ∈ rest.map TaskNode.nodeId :=
          (List.mem_cons.mp hnode).resolve_left fun hfirst => heq hfirst.symm
        rw [ih hlater hrest, statusIn, statusIn, List.find?_cons_of_neg (by simpa using heq)]

theorem exists_normalize {entries : List (StatusKey × StatusValue)} {nodes : List TaskNode}
    (hread : ∀ node ∈ nodes, ∃ status, nodeStatus entries node.nodeId = .ok status) :
    ∃ normalized, normalize entries nodes = .ok normalized := by
  induction nodes with
  | nil => exact ⟨[], rfl⟩
  | cons first rest ih =>
      obtain ⟨status, hstatus⟩ := hread first List.mem_cons_self
      obtain ⟨later, hlater⟩ := ih fun node hnode => hread node (List.mem_cons_of_mem _ hnode)
      refine ⟨(first.nodeId, status) :: later, ?_⟩
      rw [normalize, hstatus, hlater]
      rfl

/-- What runs or has succeeded comes after all that it depends on. -/
def Consistent (graph : TaskGraph) (status : Name → ExecutionStatus) : Prop :=
  ∀ node ∈ graph.nodes, status node.nodeId ∈ [ExecutionStatus.running, .succeeded] →
    ∀ dependency ∈ node.dependencies, status dependency = .succeeded

theorem checkStatuses_eq_ok_iff {nodes : List TaskNode} :
    checkStatuses status nodes = .ok () ↔
      ∀ node ∈ nodes, status node.nodeId ∈ [ExecutionStatus.running, .succeeded] →
        ∀ dependency ∈ node.dependencies, status dependency = .succeeded := by
  induction nodes with
  | nil => simp [checkStatuses]
  | cons first rest ih => rw [checkStatuses, raiseUnless_bind_eq_ok_iff, ih, List.forall_mem_cons]

theorem unknown_eq_nil_iff {entries : List (StatusKey × StatusValue)} :
    sorted (((entries.map Prod.fst).filter fun key =>
      key ∉ graph.nodeIds.map fun nodeId => StatusKey.text nodeId.val).map StatusKey.shown) = [] ↔
      ∀ entry ∈ entries, ∃ nodeId ∈ graph.nodeIds, entry.1 = .text nodeId.val := by
  rw [← List.length_eq_zero_iff, sorted, List.length_insertionSort, List.length_map,
    List.length_eq_zero_iff, List.filter_eq_nil_iff, List.forall_mem_map]
  apply forall₂_congr
  intro entry _
  rw [decide_eq_true_eq, not_not, List.mem_map]
  exact exists_congr fun nodeId => and_congr_right fun _ => eq_comm

/-- A plan is what the pass decides, at statuses that are read for all nodes, keep the
order of the dependencies and keep the budgets. -/
theorem plan_eq_ok_iff {statuses : StatusesArgument} {plan : SchedulePlan} :
    graph.plan statuses = .ok plan ↔
      ∃ entries normalized, statuses.entries? = some entries ∧
        (∀ entry ∈ entries, ∃ nodeId ∈ graph.nodeIds, entry.1 = .text nodeId.val) ∧
        normalize entries graph.nodes = .ok normalized ∧
        graph.Consistent (statusIn normalized) ∧
        (graph.running (statusIn normalized)).length ≤ graph.maxParallelism ∧
        graph.runningUnits (statusIn normalized) ≤ graph.maxResourceUnits ∧
        graph.decision (statusIn normalized) = plan := by
  unfold TaskGraph.plan
  rw [orRaise_bind_eq_ok_iff]
  constructor
  · rintro ⟨entries, hentries, hok⟩
    obtain ⟨hunknown, hok⟩ := raiseUnless_bind_eq_ok hok
    obtain ⟨normalized, hnormalized, hok⟩ := bind_eq_ok hok
    obtain ⟨_, hchecked, hok⟩ := bind_eq_ok hok
    obtain ⟨hcount, hok⟩ := raiseUnless_bind_eq_ok hok
    obtain ⟨hunits, hok⟩ := raiseUnless_bind_eq_ok hok
    exact ⟨entries, normalized, hentries, unknown_eq_nil_iff.mp hunknown, hnormalized,
      checkStatuses_eq_ok_iff.mp hchecked, hcount, hunits, Except.ok.inj hok⟩
  · rintro ⟨entries, normalized, hentries, hkeys, hnormalized, hconsistent, hcount, hunits, rfl⟩
    have hchecked := checkStatuses_eq_ok_iff.mpr hconsistent
    exact ⟨entries, hentries, raiseUnless_bind_eq_ok_iff.mpr
      ⟨unknown_eq_nil_iff.mpr hkeys, bind_eq_ok_iff.mpr ⟨normalized, hnormalized,
        bind_eq_ok_iff.mpr ⟨(), hchecked, raiseUnless_bind_eq_ok_iff.mpr
          ⟨hcount, raiseUnless_bind_eq_ok_iff.mpr ⟨hunits, rfl⟩⟩⟩⟩⟩⟩

/-! ## The contract of a plan -/

/-- What a plan promises at the statuses of the nodes. -/
structure PlanContract (graph : TaskGraph) (status : Name → ExecutionStatus)
    (plan : SchedulePlan) : Prop where
  nodup : (plan.ready ++ plan.blocked ++ plan.waiting).Nodup
  mem_iff : ∀ nodeId, nodeId ∈ plan.ready ++ plan.blocked ++ plan.waiting ↔
    nodeId ∈ graph.nodeIds ∧ status nodeId = .pending
  blocked_iff : ∀ nodeId, nodeId ∈ plan.blocked ↔
    nodeId ∈ graph.nodeIds ∧ Reaches graph.dependencies (fun node => status node = .pending)
      (fun node => (status node).isTerminalFailure = true) nodeId
  ready_succeeded : ∀ nodeId ∈ plan.ready, ∀ dependency ∈ graph.dependencies nodeId,
    status dependency = .succeeded
  parallelism : (graph.running status).length + plan.ready.length ≤ graph.maxParallelism
  resources : graph.runningUnits status + (plan.ready.map graph.resourceUnits).sum ≤
    graph.maxResourceUnits

theorem planContract_decision
    (hcount : (graph.running status).length ≤ graph.maxParallelism)
    (hunits : graph.runningUnits status ≤ graph.maxResourceUnits) :
    PlanContract graph status (graph.decision status) := by
  obtain ⟨htopological, hnodup, hmem⟩ := graph.order_spec
  have hdecides : Decides graph status (graph.maxParallelism - (graph.running status).length)
      (graph.maxResourceUnits - graph.runningUnits status) graph.order
      (graph.admissions status (graph.maxParallelism - (graph.running status).length)
        (graph.maxResourceUnits - graph.runningUnits status) graph.order) :=
    decides_admissions htopological hnodup
  have hmarked := htopological.marked_iff hdecides.blocked_iff
  have hslots := hdecides.slots_eq
  have hresources := hdecides.resources_eq
  constructor
  case nodup => exact hdecides.partition.nodup_iff.mpr (hnodup.filter _)
  case mem_iff =>
    intro nodeId
    rw [decision, hdecides.partition.mem_iff, List.mem_filter, hmem, decide_eq_true_eq]
  case blocked_iff =>
    intro nodeId
    rw [← hmem]
    constructor
    · intro hblocked
      have hprocessed := (hdecides.pending_of_blocked hblocked).1
      exact ⟨hprocessed, (hmarked nodeId hprocessed).mp hblocked⟩
    · rintro ⟨hprocessed, hreaches⟩
      exact (hmarked nodeId hprocessed).mpr hreaches
  case ready_succeeded => exact hdecides.ready_succeeded
  case parallelism =>
    dsimp only [decision]
    omega
  case resources =>
    dsimp only [decision]
    omega

/-- While no node runs, either a node is admitted or all that is pending is blocked. -/
theorem blocked_of_ready_eq_nil (hidle : ∀ nodeId ∈ graph.nodeIds, status nodeId ≠ .running)
    (hready : (graph.decision status).ready = []) :
    ∀ nodeId ∈ graph.nodeIds, status nodeId = .pending →
      nodeId ∈ (graph.decision status).blocked := by
  obtain ⟨htopological, hnodup, hmem⟩ := graph.order_spec
  have hrunning : graph.running status = [] :=
    List.filter_eq_nil_iff.mpr fun node hnode => by
      rw [decide_eq_true_eq]
      exact hidle node.nodeId (List.mem_map_of_mem hnode)
  have hdecides : Decides graph status (graph.maxParallelism - (graph.running status).length)
      (graph.maxResourceUnits - graph.runningUnits status) graph.order
      (graph.admissions status (graph.maxParallelism - (graph.running status).length)
        (graph.maxResourceUnits - graph.runningUnits status) graph.order) :=
    decides_admissions htopological hnodup
  have hbudgets : ∀ nodeId ∈ graph.order, 0 < graph.maxParallelism - (graph.running status).length ∧
      graph.resourceUnits nodeId ≤ graph.maxResourceUnits - graph.runningUnits status := by
    intro nodeId hnode
    rw [runningUnits, hrunning]
    exact ⟨graph.parallelism_pos, resourceUnits_le ((hmem nodeId).mp hnode)⟩
  have hnext : ∀ nodeId ∈ graph.order,
      (∀ dependency ∈ graph.dependencies nodeId, status dependency = .pending →
        dependency ∈ (graph.decision status).blocked) →
      status nodeId = .pending → nodeId ∈ (graph.decision status).blocked := by
    intro nodeId hnode ih hpending
    apply (hdecides.blocked_iff nodeId hnode).mpr
    refine ⟨hpending, ?_⟩
    by_contra hfailure
    apply hdecides.admitted hready nodeId hnode hpending ?_ (hbudgets nodeId hnode)
    intro dependency hdependency
    have hknown := dependencies_known ((hmem nodeId).mp hnode) hdependency
    have hnotFailed : (status dependency).isTerminalFailure ≠ true := fun hfailed =>
      hfailure ⟨dependency, hdependency, .inl hfailed⟩
    have hnotPending : status dependency ≠ .pending := fun hpending =>
      hfailure ⟨dependency, hdependency, .inr (ih dependency hdependency hpending)⟩
    exact ExecutionStatus.eq_succeeded hnotPending (hidle dependency hknown) hnotFailed
  intro nodeId hnode
  exact htopological.induction hnext nodeId ((hmem nodeId).mpr hnode)

/-- A graph that is accepted has the given nodes and no cycle, and every plan that it
accepts divides the pending nodes as its contract says. -/
theorem plan_contract {nodes : NodesArgument TaskNode} {maxParallelism maxResourceUnits : PyValue}
    {graph : TaskGraph}
    (haccepted : construct nodes maxParallelism maxResourceUnits = .ok graph) :
    nodes = .sequence (graph.nodes.map some) ∧
      (∀ node ∈ graph.nodes, ∀ dependency ∈ node.dependencies, dependency ∈ graph.nodeIds) ∧
      ¬DepthFirst.Cyclic graph.dependencies ∧
      ∀ statuses plan, graph.plan statuses = .ok plan →
        ∃ entries status, statuses.entries? = some entries ∧
          (∀ nodeId ∈ graph.nodeIds, nodeStatus entries nodeId = .ok (status nodeId)) ∧
          PlanContract graph status plan := by
  have hknown : ∀ node ∈ graph.nodes, ∀ dependency ∈ node.dependencies,
      dependency ∈ graph.nodeIds := fun node hnode =>
    (node_of_checkNodes graph.checked hnode).1
  have hplans : ∀ statuses plan, graph.plan statuses = .ok plan →
      ∃ entries status, statuses.entries? = some entries ∧
        (∀ nodeId ∈ graph.nodeIds, nodeStatus entries nodeId = .ok (status nodeId)) ∧
        PlanContract graph status plan := by
    intro statuses plan hplan
    obtain ⟨entries, normalized, hentries, -, hnormalized, -, hcount, hunits, rfl⟩ :=
      plan_eq_ok_iff.mp hplan
    exact ⟨entries, statusIn normalized, hentries,
      fun nodeId hnode => status_of_normalize hnormalized hnode,
      planContract_decision hcount hunits⟩
  exact ⟨nodes_of_construct graph haccepted, hknown, graph.acyclic, hplans⟩

end TaskGraph

/-! ## A small graph -/

def sourceNode : TaskNode where
  nodeId := ⟨"source", by decide⟩
  role := ⟨"researcher", by decide⟩
  dependencies := []
  maxAttempts := 3
  timeoutSeconds := 20
  resourceUnits := 1
  distinct := by decide
  irreflexive := by decide
  attempts_pos := by decide
  timeout_pos := by decide
  units_pos := by decide

def labNode : TaskNode where
  nodeId := ⟨"lab", by decide⟩
  role := ⟨"lab_runner", by decide⟩
  dependencies := [sourceNode.nodeId]
  maxAttempts := 2
  timeoutSeconds := 300
  resourceUnits := 1
  distinct := by decide
  irreflexive := by decide
  attempts_pos := by decide
  timeout_pos := by decide
  units_pos := by decide

/-- A lab run that depends on its source. -/
def labGraph : TaskGraph where
  nodes := [labNode, sourceNode]
  maxParallelism := 4
  maxResourceUnits := 4
  order := [sourceNode.nodeId, labNode.nodeId]
  parallelism_pos := by decide
  resources_pos := by decide
  distinct := by decide
  checked := by decide
  ordered := by decide

theorem labGraph_plan_contract :
    TaskGraph.construct (.sequence [some labNode, some sourceNode]) (.int 4) (.int 4) =
        .ok labGraph ∧
      ¬DepthFirst.Cyclic labGraph.dependencies ∧
      ∀ statuses plan, labGraph.plan statuses = .ok plan →
        ∃ entries status, statuses.entries? = some entries ∧
          (∀ nodeId ∈ labGraph.nodeIds, nodeStatus entries nodeId = .ok (status nodeId)) ∧
          TaskGraph.PlanContract labGraph status plan :=
  have haccepted : TaskGraph.construct (.sequence [some labNode, some sourceNode]) (.int 4)
      (.int 4) = .ok labGraph := rfl
  ⟨haccepted, (TaskGraph.plan_contract haccepted).2.2⟩

end AegisForge.Orchestrator
