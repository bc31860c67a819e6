import Mathlib.Algebra.BigOperators.Group.List.Basic
import Mathlib.Algebra.BigOperators.Ring.List
import Mathlib.Algebra.Order.BigOperators.Group.List
import Mathlib.Algebra.Ring.Nat
import AegisForge.Core.Runs
import AegisForge.Orchestrator.SchedulePlan

/-!
# Runs of a scheduler

A driver starts nodes that a plan admits, reports how they end and returns failed ones
to `PENDING` as far as their attempts allow.  Every such run is short, no plan is ever
refused, and where it ends every node has succeeded, failed for good or is blocked.
-/

namespace AegisForge.Orchestrator

open AegisForge.Core AegisForge.Shared

/-! ## The driver -/

/-- The status of each node and how often it was started. -/
structure DriverState where
  status : Name → ExecutionStatus
  starts : Name → ℕ

inductive DriverAction
  | start (nodeIds : List Name)
  | report (nodeId : Name) (outcome : ExecutionStatus)
  | retry (nodeId : Name)
  deriving DecidableEq

namespace DriverState

def initial : DriverState where
  status := fun _ => .pending
  starts := fun _ => 0

def setStatus (state : DriverState) (nodeId : Name) (status : ExecutionStatus) : DriverState :=
  { state with status := fun other => if other = nodeId then status else state.status other }

def started (state : DriverState) (nodeIds : List Name) : DriverState where
  status := fun nodeId => if nodeId ∈ nodeIds then .running else state.status nodeId
  starts := fun nodeId =>
    if nodeId ∈ nodeIds then state.starts nodeId + 1 else state.starts nodeId

def perform (state : DriverState) : DriverAction → DriverState
  | .start nodeIds => state.started nodeIds
  | .report nodeId outcome => state.setStatus nodeId outcome
  | .retry nodeId => state.setStatus nodeId .pending

end DriverState

/-- A mapping from which a plan reads the statuses of the nodes. -/
def TaskGraph.Represents (graph : TaskGraph) (state : DriverState) (statuses : StatusesArgument) :
    Prop :=
  ∃ entries, statuses.entries? = some entries ∧
    (∀ entry ∈ entries, ∃ nodeId ∈ graph.nodeIds, entry.1 = .text nodeId.val) ∧
    ∀ nodeId ∈ graph.nodeIds, nodeStatus entries nodeId = .ok (state.status nodeId)

/-- The identifier and its `repr`. -/
def Name.reprText (nodeId : Name) : ReprText := ⟨nodeId.val, s!"'{nodeId.val}'"⟩

/-- `retry_allowed` for the number of starts that a node has had. -/
def TaskGraph.retryOf (graph : TaskGraph) (state : DriverState) (nodeId : Name) :
    Except Raised Bool :=
  graph.retryAllowed (Name.reprText nodeId) (.int (state.starts nodeId))
    (.status (state.status nodeId))

/-- The outcomes that a driver reports. -/
def outcomes : List ExecutionStatus := [.succeeded, .failed, .timedOut, .incomplete]

/-- What a driver may do: start nodes that are ready, report a running node, return one
that failed. -/
def TaskGraph.Permits (graph : TaskGraph) (state : DriverState) : DriverAction → Prop
  | .start nodeIds => nodeIds ≠ [] ∧ ∃ statuses plan, graph.Represents state statuses ∧
      graph.plan statuses = .ok plan ∧ ∀ nodeId ∈ nodeIds, nodeId ∈ plan.ready
  | .report nodeId outcome =>
      nodeId ∈ graph.nodeIds ∧ state.status nodeId = .running ∧ outcome ∈ outcomes
  | .retry nodeId => graph.retryOf state nodeId = .ok true

/-! ## Plans of a driver -/

variable {graph : TaskGraph} {state : DriverState}

theorem statusIn_of_notMem {entries : List (StatusKey × StatusValue)} {nodes : List TaskNode}
    {normalized : List (Name × ExecutionStatus)} {nodeId : Name}
    (hok : normalize entries nodes = .ok normalized)
    (hnode : nodeId ∉ nodes.map TaskNode.nodeId) : statusIn normalized nodeId = .pending := by
  induction nodes generalizing normalized with
  | nil =>
      obtain rfl := Except.ok.inj hok
      rfl
  | cons first rest ih =>
      rw [normalize] at hok
      obtain ⟨status, -, hok⟩ := bind_eq_ok hok
      obtain ⟨later, hlater, hok⟩ := bind_eq_ok hok
      obtain rfl := Except.ok.inj hok
      rw [List.map_cons, List.mem_cons, not_or] at hnode
      have hne : first.nodeId ≠ nodeId := fun heq => hnode.1 heq.symm
      rw [statusIn, List.find?_cons_of_neg (by simpa using hne)]
      exact ih hlater hnode.2

/-- The state between the steps of a driver. -/
structure Scheduled (graph : TaskGraph) (state : DriverState) : Prop where
  outside : ∀ nodeId, nodeId ∉ graph.nodeIds → state.status nodeId = .pending
  consistent : graph.Consistent state.status
  parallelism : (graph.running state.status).length ≤ graph.maxParallelism
  resources : graph.runningUnits state.status ≤ graph.maxResourceUnits
  attempts : ∀ node ∈ graph.nodes, state.starts node.nodeId ≤ node.maxAttempts
  remaining : ∀ node ∈ graph.nodes, state.status node.nodeId = .pending →
    state.starts node.nodeId < node.maxAttempts
  started : ∀ node ∈ graph.nodes, state.status node.nodeId ≠ .pending →
    1 ≤ state.starts node.nodeId
  reported : ∀ node ∈ graph.nodes, state.status node.nodeId ≠ .blocked

namespace Scheduled

theorem initial : Scheduled graph .initial where
  outside := fun _ _ => rfl
  consistent := by
    intro node hnode hstatus
    simp [DriverState.initial] at hstatus
  parallelism := by
    simp [TaskGraph.running, DriverState.initial]
  resources := by
    simp [TaskGraph.runningUnits, TaskGraph.running, DriverState.initial]
  attempts := fun node _ => Nat.zero_le node.maxAttempts
  remaining := fun node _ _ => node.attempts_pos
  started := fun _ _ hstatus => absurd rfl hstatus
  reported := fun _ _ => by simp [DriverState.initial]

/-- A plan at a state is what the pass decides there; it is never refused. -/
theorem plan_eq (hscheduled : Scheduled graph state) {statuses : StatusesArgument}
    (hrepresents : graph.Represents state statuses) :
    graph.plan statuses = .ok (graph.decision state.status) := by
  obtain ⟨entries, hentries, hkeys, hread⟩ := hrepresents
  obtain ⟨normalized, hnormalized⟩ : ∃ normalized, normalize entries graph.nodes = .ok normalized :=
    TaskGraph.exists_normalize fun node hnode =>
      ⟨state.status node.nodeId, hread node.nodeId (List.mem_map_of_mem hnode)⟩
  have hstatus : statusIn normalized = state.status := by
    funext nodeId
    by_cases hnode : nodeId ∈ graph.nodeIds
    · have hsame := TaskGraph.status_of_normalize hnormalized hnode
      rw [hread nodeId hnode] at hsame
      exact (Except.ok.inj hsame).symm
    · rw [statusIn_of_notMem hnormalized hnode, hscheduled.outside nodeId hnode]
  refine TaskGraph.plan_eq_ok_iff.mpr ⟨entries, normalized, hentries, hkeys, hnormalized, ?_⟩
  rw [hstatus]
  exact ⟨hscheduled.consistent, hscheduled.parallelism, hscheduled.resources, rfl⟩

end Scheduled

/-! ## Budgets -/

theorem sum_filter_or_le {A : Type*} (weight : A → ℕ) (left right : A → Bool) (items : List A) :
    ((items.filter fun item => left item || right item).map weight).sum ≤
      ((items.filter left).map weight).sum + ((items.filter right).map weight).sum := by
  induction items with
  | nil => simp
  | cons item rest ih =>
      cases hleft : left item <;> cases hright : right item <;>
        simp [hleft, hright] <;> omega

/-- Nodes that are listed in a list without duplicates weigh at most what it weighs. -/
theorem sum_listed_le (weight : Name → ℕ) {nodeIds ready : List Name}
    (hready : ∀ nodeId ∈ nodeIds, nodeId ∈ ready) :
    ((graph.nodes.filter fun node => node.nodeId ∈ nodeIds).map
      fun node => weight node.nodeId).sum ≤ (ready.map weight).sum := by
  have hnodup : ((graph.nodes.filter fun node => node.nodeId ∈ nodeIds).map
      TaskNode.nodeId).Nodup :=
    graph.distinct.sublist (List.filter_sublist.map _)
  have hsubset : (graph.nodes.filter fun node => node.nodeId ∈ nodeIds).map TaskNode.nodeId ⊆
      ready := by
    intro nodeId hmem
    obtain ⟨node, hnode, rfl⟩ := List.mem_map.mp hmem
    exact hready node.nodeId (of_decide_eq_true (List.mem_filter.mp hnode).2)
  obtain ⟨listed, hperm, hsublist⟩ := hnodup.subperm hsubset
  calc ((graph.nodes.filter fun node => node.nodeId ∈ nodeIds).map
        fun node => weight node.nodeId).sum
      = (((graph.nodes.filter fun node => node.nodeId ∈ nodeIds).map TaskNode.nodeId).map
          weight).sum := by rw [List.map_map]; rfl
    _ = (listed.map weight).sum := (hperm.map weight).sum_eq.symm
    _ ≤ (ready.map weight).sum := (hsublist.map weight).sum_le_sum (by simp)

/-- The running nodes after a start weigh at most what ran and what was ready weighed. -/
theorem sum_running_started_le (graph : TaskGraph) (state : DriverState) (weight : Name → ℕ) {nodeIds ready : List Name}
    (hready : ∀ nodeId ∈ nodeIds, nodeId ∈ ready) :
    ((graph.running (state.started nodeIds).status).map fun node => weight node.nodeId).sum ≤
      ((graph.running state.status).map fun node => weight node.nodeId).sum +
        (ready.map weight).sum := by
  have hrunning : graph.running (state.started nodeIds).status =
      graph.nodes.filter fun node => decide (state.status node.nodeId = .running) ||
        decide (node.nodeId ∈ nodeIds) := by
    apply List.filter_congr
    intro node _
    by_cases hmem : node.nodeId ∈ nodeIds <;> simp [DriverState.started, hmem]
  rw [hrunning]
  exact (sum_filter_or_le _ _ _ _).trans (Nat.add_le_add_left (sum_listed_le weight hready) _)

theorem runningUnits_eq (status : Name → ExecutionStatus) :
    graph.runningUnits status =
      ((graph.running status).map fun node => graph.resourceUnits node.nodeId).sum := by
  rw [TaskGraph.runningUnits]
  congr 1
  apply List.map_congr_left
  intro node hnode
  exact (TaskGraph.resourceUnits_eq (List.mem_filter.mp hnode).1).symm

theorem length_eq_sum {A : Type*} (items : List A) : items.length = (items.map fun _ => 1).sum := by
  induction items with
  | nil => rfl
  | cons item rest ih => rw [List.length_cons, ih, List.map_cons, List.sum_cons, Nat.add_comm]

/-- What stops running takes no budget. -/
theorem running_sublist {status later : Name → ExecutionStatus}
    (hlater : ∀ nodeId, later nodeId = .running → status nodeId = .running) :
    (graph.running later).Sublist (graph.running status) :=
  List.monotone_filter_right graph.nodes fun node hnode =>
    decide_eq_true (hlater node.nodeId (of_decide_eq_true hnode))

/-! ## Steps -/

namespace Scheduled

variable {nodeId : Name} {nodeIds : List Name}

theorem start (hscheduled : Scheduled graph state)
    (hready : ∀ nodeId ∈ nodeIds, nodeId ∈ (graph.decision state.status).ready) :
    Scheduled graph (state.started nodeIds) := by
  have hcontract := TaskGraph.planContract_decision hscheduled.parallelism hscheduled.resources
  have hpending : ∀ nodeId ∈ nodeIds, nodeId ∈ graph.nodeIds ∧ state.status nodeId = .pending :=
    fun nodeId hmem => (hcontract.mem_iff nodeId).mp
      (List.mem_append_left _ (List.mem_append_left _ (hready nodeId hmem)))
  constructor
  case outside =>
    intro nodeId houtside
    have hmem : nodeId ∉ nodeIds := fun hmem => houtside (hpending nodeId hmem).1
    simpa [DriverState.started, hmem] using hscheduled.outside nodeId houtside
  case consistent =>
    intro node hnode hstatus dependency hdependency
    have hsucceeded : state.status dependency = .succeeded := by
      by_cases hmem : node.nodeId ∈ nodeIds
      · rw [← TaskGraph.dependencies_eq hnode] at hdependency
        exact hcontract.ready_succeeded node.nodeId (hready node.nodeId hmem) dependency
          hdependency
      · have hold : state.status node.nodeId ∈ [ExecutionStatus.running, .succeeded] := by
          simpa [DriverState.started, hmem] using hstatus
        exact hscheduled.consistent node hnode hold dependency hdependency
    have hmem : dependency ∉ nodeIds := by
      intro hmem
      rw [(hpending dependency hmem).2] at hsucceeded
      exact absurd hsucceeded (by decide)
    simpa [DriverState.started, hmem] using hsucceeded
  case parallelism =>
    have hsum := sum_running_started_le graph state (fun _ => 1) hready
    have hslots := hcontract.parallelism
    rw [length_eq_sum, length_eq_sum (graph.decision state.status).ready] at hslots
    rw [length_eq_sum]
    exact hsum.trans hslots
  case resources =>
    have hsum := sum_running_started_le graph state graph.resourceUnits hready
    have hunits := hcontract.resources
    rw [runningUnits_eq] at hunits ⊢
    exact hsum.trans hunits
  case attempts =>
    intro node hnode
    by_cases hmem : node.nodeId ∈ nodeIds
    · simp only [DriverState.started, hmem, if_true]
      exact hscheduled.remaining node hnode (hpending node.nodeId hmem).2
    · simpa [DriverState.started, hmem] using hscheduled.attempts node hnode
  case remaining =>
    intro node hnode hstatus
    by_cases hmem : node.nodeId ∈ nodeIds
    · simp [DriverState.started, hmem] at hstatus
    · simp only [DriverState.started, hmem, if_false] at hstatus ⊢
      exact hscheduled.remaining node hnode hstatus
  case started =>
    intro node hnode hstatus
    by_cases hmem : node.nodeId ∈ nodeIds
    · simp [DriverState.started, hmem]
    · simp only [DriverState.started, hmem, if_false] at hstatus ⊢
      exact hscheduled.started node hnode hstatus
  case reported =>
    intro node hnode
    by_cases hmem : node.nodeId ∈ nodeIds
    · simp [DriverState.started, hmem]
    · simpa [DriverState.started, hmem] using hscheduled.reported node hnode

/-- A node that was started and has not succeeded takes another status, but `SUCCEEDED`
only while it runs and `PENDING` only while attempts remain. -/
theorem setStatus (hscheduled : Scheduled graph state) {node : TaskNode}
    (hnode : node ∈ graph.nodes) {status : ExecutionStatus}
    (hpending : state.status node.nodeId ≠ .pending)
    (hunfinished : state.status node.nodeId ≠ .succeeded)
    (hrunning : status ≠ .running) (hblocked : status ≠ .blocked)
    (hsucceeded : status = .succeeded → state.status node.nodeId = .running)
    (hremaining : status = .pending → state.starts node.nodeId < node.maxAttempts) :
    Scheduled graph (state.setStatus node.nodeId status) := by
  have hstops : ∀ other, (state.setStatus node.nodeId status).status other = .running →
      state.status other = .running := by
    intro other hother
    by_cases heq : other = node.nodeId
    · simp [DriverState.setStatus, heq, hrunning] at hother
    · simpa [DriverState.setStatus, heq] using hother
  have hsame : ∀ {other : TaskNode}, other ∈ graph.nodes → other.nodeId = node.nodeId →
      other = node := fun hother heq =>
    List.inj_on_of_nodup_map graph.distinct hother hnode heq
  constructor
  case outside =>
    intro other houtside
    have hne : other ≠ node.nodeId := by
      rintro rfl
      exact houtside (List.mem_map_of_mem hnode)
    simpa [DriverState.setStatus, hne] using hscheduled.outside other houtside
  case consistent =>
    intro other hother hstatus dependency hdependency
    have hold : state.status other.nodeId ∈ [ExecutionStatus.running, .succeeded] := by
      by_cases heq : other.nodeId = node.nodeId
      · have hnew : status = .succeeded := by
          simpa [DriverState.setStatus, heq, hrunning] using hstatus
        rw [heq, hsucceeded hnew]
        exact List.mem_cons_self
      · simpa [DriverState.setStatus, heq] using hstatus
    have hdone := hscheduled.consistent other hother hold dependency hdependency
    have hne : dependency ≠ node.nodeId := by
      rintro rfl
      exact hunfinished hdone
    simpa [DriverState.setStatus, hne] using hdone
  case parallelism => exact (running_sublist hstops).length_le.trans hscheduled.parallelism
  case resources =>
    have hsum := ((running_sublist hstops : (graph.running _).Sublist _).map
      TaskNode.resourceUnits).sum_le_sum fun _ _ => Nat.zero_le _
    exact hsum.trans hscheduled.resources
  case attempts => exact hscheduled.attempts
  case remaining =>
    intro other hother hstatus
    by_cases heq : other.nodeId = node.nodeId
    · obtain rfl := hsame hother heq
      exact hremaining (by simpa [DriverState.setStatus] using hstatus)
    · exact hscheduled.remaining other hother (by simpa [DriverState.setStatus, heq] using hstatus)
  case started =>
    intro other hother hstatus
    by_cases heq : other.nodeId = node.nodeId
    · obtain rfl := hsame hother heq
      exact hscheduled.started other hother hpending
    · exact hscheduled.started other hother (by simpa [DriverState.setStatus, heq] using hstatus)
  case reported =>
    intro other hother
    by_cases heq : other.nodeId = node.nodeId
    · simpa [DriverState.setStatus, heq] using hblocked
    · simpa [DriverState.setStatus, heq] using hscheduled.reported other hother

end Scheduled

theorem find?_reprText (graph : TaskGraph) (nodeId : Name) :
    (graph.nodes.find? fun node => node.nodeId.val = (Name.reprText nodeId).value) =
      nodeOf graph.nodes nodeId := by
  have hsame : (fun node : TaskNode => decide (node.nodeId.val = (Name.reprText nodeId).value)) =
      fun node => decide (node.nodeId = nodeId) := by
    funext node
    exact decide_eq_decide.mpr Subtype.ext_iff.symm
  rw [hsame, nodeOf]

theorem positive?_int {number : ℕ} (hnumber : 1 ≤ number) :
    positive? (.int number) = some ⟨number, hnumber⟩ := by
  rw [positive?, dif_pos (by omega)]
  simp

theorem retryOf_eq {node : TaskNode} (hnode : node ∈ graph.nodes)
    (hstarted : 1 ≤ state.starts node.nodeId) :
    graph.retryOf state node.nodeId =
      .ok ((state.status node.nodeId).isRetryable &&
        decide (state.starts node.nodeId < node.maxAttempts)) := by
  rw [TaskGraph.retryOf, TaskGraph.retryAllowed, find?_reprText, TaskGraph.nodeOf_eq_some hnode,
    positive?_int hstarted]
  rfl

/-- A retry is allowed for a node that failed and has attempts left. -/
theorem retryable_of_retryOf {nodeId : Name} (hok : graph.retryOf state nodeId = .ok true) :
    ∃ node ∈ graph.nodes, node.nodeId = nodeId ∧
      (state.status nodeId).isRetryable = true ∧ state.starts nodeId < node.maxAttempts := by
  rw [TaskGraph.retryOf, TaskGraph.retryAllowed, find?_reprText] at hok
  obtain ⟨node, hfound, hok⟩ := orRaise_bind_eq_ok hok
  obtain ⟨attempts, hattempts, hok⟩ := orRaise_bind_eq_ok hok
  obtain ⟨status, hstatus, hok⟩ := bind_eq_ok hok
  obtain rfl := Except.ok.inj hstatus
  have hboth := Except.ok.inj hok
  rw [Bool.and_eq_true, decide_eq_true_eq] at hboth
  have hvalue : attempts.1 = state.starts nodeId := by
    rw [positive?] at hattempts
    split at hattempts
    case isFalse => cases hattempts
    case isTrue =>
      obtain rfl := Option.some.inj hattempts
      exact Int.toNat_natCast _
  obtain ⟨hnode, hname⟩ := mem_of_nodeOf hfound
  exact ⟨node, hnode, hname, hboth.1, hvalue ▸ hboth.2⟩

/-- Every step of a driver keeps what its states have in common. -/
theorem Scheduled.perform (hscheduled : Scheduled graph state) {action : DriverAction}
    (hpermits : graph.Permits state action) : Scheduled graph (state.perform action) := by
  cases action with
  | start nodeIds =>
      obtain ⟨-, statuses, plan, hrepresents, hplan, hready⟩ := hpermits
      rw [hscheduled.plan_eq hrepresents] at hplan
      obtain rfl := Except.ok.inj hplan
      exact hscheduled.start hready
  | report nodeId outcome =>
      obtain ⟨hknown, hrunning, houtcome⟩ := hpermits
      obtain ⟨node, hnode, rfl⟩ := TaskGraph.mem_nodeIds.mp hknown
      have hoptions : outcome = .succeeded ∨ outcome = .failed ∨ outcome = .timedOut ∨
          outcome = .incomplete := by
        simpa [outcomes] using houtcome
      apply hscheduled.setStatus hnode
      case hpending => simp [hrunning]
      case hunfinished => simp [hrunning]
      case hrunning => rcases hoptions with rfl | rfl | rfl | rfl <;> decide
      case hblocked => rcases hoptions with rfl | rfl | rfl | rfl <;> decide
      case hsucceeded => exact fun _ => hrunning
      case hremaining =>
        rintro rfl
        simp [outcomes] at houtcome
  | retry nodeId =>
      obtain ⟨node, hnode, rfl, hretryable, hremaining⟩ := retryable_of_retryOf hpermits
      rw [ExecutionStatus.isRetryable] at hretryable
      apply hscheduled.setStatus hnode
      case hpending =>
        intro heq
        simp [heq] at hretryable
      case hunfinished =>
        intro heq
        simp [heq] at hretryable
      case hrunning => decide
      case hblocked => decide
      case hsucceeded => exact fun heq => absurd heq (by decide)
      case hremaining => exact fun _ => hremaining

/-! ## The end of a run -/

/-- What a node in a status may still cause without being started again. -/
def load (status : ExecutionStatus) : ℕ :=
  if status = .running then 2 else if status.isRetryable = true then 1 else 0

/-- Each start pays for its report and its retry. -/
def nodeMeasure (state : DriverState) (node : TaskNode) : ℕ :=
  3 * (node.maxAttempts - state.starts node.nodeId) + load (state.status node.nodeId)

def TaskGraph.measure (graph : TaskGraph) (state : DriverState) : ℕ :=
  (graph.nodes.map (nodeMeasure state)).sum

theorem measure_initial (graph : TaskGraph) :
    graph.measure .initial = 3 * (graph.nodes.map TaskNode.maxAttempts).sum := by
  have hinitial : ∀ node : TaskNode, nodeMeasure .initial node = 3 * node.maxAttempts := fun _ => rfl
  rw [TaskGraph.measure, funext hinitial]
  exact List.sum_map_mul_left graph.nodes TaskNode.maxAttempts 3

theorem measure_started_lt (hscheduled : Scheduled graph state) {nodeIds : List Name}
    (hnonempty : nodeIds ≠ [])
    (hpending : ∀ nodeId ∈ nodeIds, nodeId ∈ graph.nodeIds ∧ state.status nodeId = .pending) :
    graph.measure (state.started nodeIds) < graph.measure state := by
  have hstarts : ∀ node ∈ graph.nodes, node.nodeId ∈ nodeIds →
      nodeMeasure (state.started nodeIds) node < nodeMeasure state node := by
    intro node hnode hmem
    have hless := hscheduled.remaining node hnode (hpending node.nodeId hmem).2
    simp only [nodeMeasure, DriverState.started, hmem, if_true, (hpending node.nodeId hmem).2,
      load, ExecutionStatus.isRetryable]
    simp
    omega
  have hother : ∀ node ∈ graph.nodes, node.nodeId ∉ nodeIds →
      nodeMeasure (state.started nodeIds) node = nodeMeasure state node := by
    intro node _ hmem
    simp [nodeMeasure, DriverState.started, hmem]
  apply List.sum_lt_sum
  · intro node hnode
    by_cases hmem : node.nodeId ∈ nodeIds
    · exact (hstarts node hnode hmem).le
    · exact (hother node hnode hmem).le
  · obtain ⟨nodeId, hmem⟩ := List.exists_mem_of_ne_nil nodeIds hnonempty
    obtain ⟨node, hnode, rfl⟩ := TaskGraph.mem_nodeIds.mp (hpending nodeId hmem).1
    exact ⟨node, hnode, hstarts node hnode hmem⟩

theorem measure_setStatus_lt {node : TaskNode} (hnode : node ∈ graph.nodes)
    {status : ExecutionStatus} (hless : load status < load (state.status node.nodeId)) :
    graph.measure (state.setStatus node.nodeId status) < graph.measure state := by
  have hself : ∀ other : TaskNode, other.nodeId = node.nodeId →
      nodeMeasure (state.setStatus node.nodeId status) other < nodeMeasure state other := by
    intro other heq
    simpa [nodeMeasure, DriverState.setStatus, heq] using hless
  apply List.sum_lt_sum
  · intro other hother
    by_cases heq : other.nodeId = node.nodeId
    · exact (hself other heq).le
    · simp [nodeMeasure, DriverState.setStatus, heq]
  · exact ⟨node, hnode, hself node rfl⟩

/-- Every step of a driver uses up a part of what is left to do. -/
theorem measure_perform_lt (hscheduled : Scheduled graph state) {action : DriverAction}
    (hpermits : graph.Permits state action) :
    graph.measure (state.perform action) < graph.measure state := by
  cases action with
  | start nodeIds =>
      obtain ⟨hnonempty, statuses, plan, hrepresents, hplan, hready⟩ := hpermits
      rw [hscheduled.plan_eq hrepresents] at hplan
      obtain rfl := Except.ok.inj hplan
      have hcontract := TaskGraph.planContract_decision hscheduled.parallelism
        hscheduled.resources
      exact measure_started_lt hscheduled hnonempty fun nodeId hmem =>
        (hcontract.mem_iff nodeId).mp
          (List.mem_append_left _ (List.mem_append_left _ (hready nodeId hmem)))
  | report nodeId outcome =>
      obtain ⟨hknown, hrunning, houtcome⟩ := hpermits
      obtain ⟨node, hnode, rfl⟩ := TaskGraph.mem_nodeIds.mp hknown
      apply measure_setStatus_lt hnode
      rw [hrunning]
      revert houtcome
      cases outcome <;> decide
  | retry nodeId =>
      obtain ⟨node, hnode, rfl, hretryable, -⟩ := retryable_of_retryOf hpermits
      apply measure_setStatus_lt hnode
      revert hretryable
      cases state.status node.nodeId <;> decide

/-- The action starts the node. -/
def DriverAction.startsNode (nodeId : Name) : DriverAction → Bool
  | .start nodeIds => nodeId ∈ nodeIds
  | _ => false

/-- The driver counts the starts of its run. -/
theorem starts_run (state : DriverState) (actions : List DriverAction) (nodeId : Name) :
    (run DriverState.perform state actions).starts nodeId =
      state.starts nodeId + actions.countP (DriverAction.startsNode nodeId) := by
  induction actions generalizing state with
  | nil => rfl
  | cons action rest ih =>
      have hfirst : (state.perform action).starts nodeId =
          state.starts nodeId + if action.startsNode nodeId = true then 1 else 0 := by
        cases action with
        | start nodeIds =>
            by_cases hmem : nodeId ∈ nodeIds <;>
              simp [DriverState.perform, DriverState.started, DriverAction.startsNode, hmem]
        | report => rfl
        | retry => rfl
      have hrest := ih (state.perform action)
      rw [hfirst] at hrest
      rw [List.countP_cons]
      exact hrest.trans (by omega)

/-- The mapping that lists the status of every node. -/
def TaskGraph.statusesOf (graph : TaskGraph) (state : DriverState) : StatusesArgument :=
  .mapping (graph.nodes.map fun node =>
    (.text node.nodeId.val, .status (state.status node.nodeId)))

theorem represents_statusesOf (graph : TaskGraph) (state : DriverState) :
    graph.Represents state (graph.statusesOf state) := by
  refine ⟨_, rfl, ?_, ?_⟩
  · intro entry hentry
    obtain ⟨node, hnode, rfl⟩ := List.mem_map.mp hentry
    exact ⟨node.nodeId, List.mem_map_of_mem hnode, rfl⟩
  · intro nodeId hmem
    obtain ⟨node, hnode, rfl⟩ := TaskGraph.mem_nodeIds.mp hmem
    have hfound : (graph.nodes.map fun node => (StatusKey.text node.nodeId.val,
        StatusValue.status (state.status node.nodeId))).find?
          (fun entry => entry.1 = .text node.nodeId.val) =
        some (.text node.nodeId.val, .status (state.status node.nodeId)) := by
      have hkey : ((fun entry : StatusKey × StatusValue =>
          decide (entry.1 = .text node.nodeId.val)) ∘ fun node : TaskNode =>
            (StatusKey.text node.nodeId.val, StatusValue.status (state.status node.nodeId))) =
          fun other => decide (other.nodeId = node.nodeId) := by
        funext other
        simp [Subtype.ext_iff]
      rw [List.find?_map, hkey]
      exact congrArg (Option.map _) (TaskGraph.nodeOf_eq_some hnode)
    rw [nodeStatus, hfound]
    rfl

/-- A node that needs nothing more: it succeeded, failed for good or is blocked. -/
def TaskGraph.Finished (graph : TaskGraph) (state : DriverState) (plan : SchedulePlan)
    (nodeId : Name) : Prop :=
  state.status nodeId = .succeeded ∨
    ((state.status nodeId).isRetryable = true ∧ graph.retryOf state nodeId = .ok false) ∨
    (state.status nodeId = .pending ∧ nodeId ∈ plan.blocked)

/-- A driver that can do nothing more is finished with every node. -/
theorem Scheduled.finished (hscheduled : Scheduled graph state)
    (hstuck : ∀ action, ¬graph.Permits state action) :
    ∀ nodeId ∈ graph.nodeIds, graph.Finished state (graph.decision state.status) nodeId := by
  have hidle : ∀ nodeId ∈ graph.nodeIds, state.status nodeId ≠ .running :=
    fun nodeId hnode hrunning =>
      hstuck (.report nodeId .succeeded) ⟨hnode, hrunning, List.mem_cons_self⟩
  have hready : (graph.decision state.status).ready = [] := by
    by_contra hnonempty
    have hrepresents := represents_statusesOf graph state
    exact hstuck (.start (graph.decision state.status).ready)
      ⟨hnonempty, graph.statusesOf state, graph.decision state.status, hrepresents,
        hscheduled.plan_eq hrepresents, fun _ hmem => hmem⟩
  intro nodeId hknown
  obtain ⟨node, hnode, rfl⟩ := TaskGraph.mem_nodeIds.mp hknown
  by_cases hpending : state.status node.nodeId = .pending
  · exact .inr (.inr ⟨hpending,
      TaskGraph.blocked_of_ready_eq_nil hidle hready node.nodeId hknown hpending⟩)
  by_cases hretryable : (state.status node.nodeId).isRetryable = true
  · have hretry := retryOf_eq hnode (hscheduled.started node hnode hpending)
    have hrefused : ¬graph.retryOf state node.nodeId = .ok true := hstuck (.retry node.nodeId)
    refine .inr (.inl ⟨hretryable, ?_⟩)
    rw [hretry] at hrefused ⊢
    simpa using hrefused
  · have hblocked := hscheduled.reported node hnode
    have hrunning := hidle node.nodeId hknown
    left
    revert hpending hretryable hblocked hrunning
    cases state.status node.nodeId <;> decide

/-- In every run of a driver the plan is never refused, something is ready as long as a
pending node is not blocked and none runs, no node is started too often, and the run
ends with every node finished. -/
theorem scheduler_progress (graph : TaskGraph) {actions : List DriverAction}
    (hpermitted : Permitted DriverState.perform graph.Permits .initial actions) :
    ∃ plan, (∀ statuses, graph.Represents (run DriverState.perform .initial actions) statuses →
        graph.plan statuses = .ok plan) ∧
      ((∀ nodeId ∈ graph.nodeIds,
          (run DriverState.perform .initial actions).status nodeId ≠ .running) →
        (∃ nodeId ∈ graph.nodeIds,
          (run DriverState.perform .initial actions).status nodeId = .pending ∧
            nodeId ∉ plan.blocked) →
        plan.ready ≠ []) ∧
      (∀ node ∈ graph.nodes,
        actions.countP (DriverAction.startsNode node.nodeId) ≤ node.maxAttempts) ∧
      actions.length ≤ 3 * (graph.nodes.map TaskNode.maxAttempts).sum ∧
      ((∀ action, ¬graph.Permits (run DriverState.perform .initial actions) action) →
        ∀ nodeId ∈ graph.nodeIds,
          graph.Finished (run DriverState.perform .initial actions) plan nodeId) := by
  have hscheduled : Scheduled graph (run DriverState.perform .initial actions) :=
    hpermitted.invariant (Scheduled graph) Scheduled.initial fun _ _ hstate hpermits =>
      hstate.perform hpermits
  have hlength := hpermitted.length_add_le (Scheduled graph) graph.measure Scheduled.initial
    (fun _ _ hstate hpermits => hstate.perform hpermits)
    (fun _ _ hstate hpermits => measure_perform_lt hstate hpermits)
  rw [measure_initial] at hlength
  have hprogress : (∀ nodeId ∈ graph.nodeIds,
      (run DriverState.perform .initial actions).status nodeId ≠ .running) →
      (∃ nodeId ∈ graph.nodeIds,
        (run DriverState.perform .initial actions).status nodeId = .pending ∧
          nodeId ∉ (graph.decision
            (run DriverState.perform .initial actions).status).blocked) →
      (graph.decision (run DriverState.perform .initial actions).status).ready ≠ [] := by
    rintro hidle ⟨nodeId, hknown, hpending, hnotBlocked⟩ hready
    exact hnotBlocked (TaskGraph.blocked_of_ready_eq_nil hidle hready nodeId hknown hpending)
  have hstarts : ∀ node ∈ graph.nodes,
      actions.countP (DriverAction.startsNode node.nodeId) ≤ node.maxAttempts := by
    intro node hnode
    have hattempts := hscheduled.attempts node hnode
    rw [starts_run] at hattempts
    exact (Nat.le_add_left _ _).trans hattempts
  exact ⟨graph.decision (run DriverState.perform .initial actions).status,
    fun statuses hrepresents => hscheduled.plan_eq hrepresents, hprogress, hstarts,
    (Nat.le_add_right _ _).trans hlength, hscheduled.finished⟩

/-! ## A run with a retry -/

theorem permits_start {plan : SchedulePlan} {nodeIds : List Name}
    (hplan : graph.plan (graph.statusesOf state) = .ok plan) (hnonempty : nodeIds ≠ [])
    (hready : ∀ nodeId ∈ nodeIds, nodeId ∈ plan.ready) : graph.Permits state (.start nodeIds) :=
  ⟨hnonempty, graph.statusesOf state, plan, represents_statusesOf graph state, hplan, hready⟩

/-- The source is started, times out and is returned to `PENDING`. -/
def sourceActions : List DriverAction :=
  [.start [sourceNode.nodeId], .report sourceNode.nodeId .timedOut, .retry sourceNode.nodeId]

theorem sourceActions_permitted :
    Permitted DriverState.perform labGraph.Permits .initial sourceActions := by
  have hplan : labGraph.plan (labGraph.statusesOf .initial) =
      .ok ⟨[sourceNode.nodeId], [], [labNode.nodeId], 0, 0⟩ := by decide
  refine ⟨permits_start hplan (by decide) (by decide), ⟨by decide, by decide, by decide⟩, ?_, trivial⟩
  have hretry : labGraph.retryOf ((DriverState.initial.perform (.start [sourceNode.nodeId])).perform
      (.report sourceNode.nodeId .timedOut)) sourceNode.nodeId = .ok true := by decide
  exact hretry

theorem labGraph_scheduler_progress :
    sourceActions.countP (DriverAction.startsNode sourceNode.nodeId) ≤ 3 ∧
      ∃ plan, labGraph.plan (labGraph.statusesOf (run DriverState.perform .initial sourceActions)) =
          .ok plan ∧ plan.ready ≠ [] := by
  obtain ⟨plan, hplan, hprogress, hstarts, -, -⟩ :=
    scheduler_progress labGraph sourceActions_permitted
  have hidle : ∀ nodeId ∈ labGraph.nodeIds,
      (run DriverState.perform .initial sourceActions).status nodeId ≠ .running := by decide
  have hsource := hplan (labGraph.statusesOf (run DriverState.perform .initial sourceActions))
    (represents_statusesOf labGraph _)
  have hblocked : plan.blocked = [] := by
    have hsame : labGraph.plan (labGraph.statusesOf
        (run DriverState.perform .initial sourceActions)) =
          .ok ⟨[sourceNode.nodeId], [], [labNode.nodeId], 0, 0⟩ := by decide
    rw [hsame] at hsource
    rw [← Except.ok.inj hsource]
  refine ⟨hstarts sourceNode (by decide), plan, hsource, hprogress hidle ?_⟩
  exact ⟨sourceNode.nodeId, by decide, by decide, by simp [hblocked]⟩

end AegisForge.Orchestrator
