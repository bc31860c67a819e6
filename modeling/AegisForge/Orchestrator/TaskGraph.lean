import AegisForge.Core.DepthFirst
import AegisForge.Core.PyValue
import AegisForge.Core.Table
import AegisForge.Shared.Exceptions

/-!
# Task graphs

A validated graph of dependencies and the scheduling decisions over it.  A node and
a graph are what their constructors accept.
-/

namespace AegisForge.Orchestrator

open AegisForge.Core AegisForge.Shared

def taskGraphError (message : String) : Raised := ⟨.taskGraphError, message⟩

/-! ## Values -/

/-- `_NAME.fullmatch`. -/
def isName (text : String) : Bool :=
  match text.toList with
  | [] => false
  | first :: rest =>
      first.isAlphanum && rest.length ≤ 127 &&
        rest.all fun character => character.isAlphanum || character ∈ ['_', '.', ':', '-']

abbrev Name := { text : String // isName text = true }

instance : LawfulBEq Name := inferInstance

inductive ExecutionStatus
  | pending
  | running
  | succeeded
  | failed
  | timedOut
  | incomplete
  | blocked
  deriving DecidableEq, Repr

namespace ExecutionStatus

def value : ExecutionStatus → String
  | pending => "PENDING"
  | running => "RUNNING"
  | succeeded => "SUCCEEDED"
  | failed => "FAILED"
  | timedOut => "TIMED_OUT"
  | incomplete => "INCOMPLETE"
  | blocked => "BLOCKED"

/-- `ExecutionStatus(value)`. -/
def of? (text : String) : Option ExecutionStatus :=
  [pending, running, succeeded, failed, timedOut, incomplete, blocked].find? fun status =>
    status.value = text

/-- `_TERMINAL_FAILURES`. -/
def isTerminalFailure (status : ExecutionStatus) : Bool :=
  status ∈ [failed, timedOut, incomplete, blocked]

/-- The statuses after which `retry_allowed` counts attempts. -/
def isRetryable (status : ExecutionStatus) : Bool := status ∈ [failed, timedOut, incomplete]

theorem eq_succeeded {status : ExecutionStatus} (hpending : status ≠ pending)
    (hrunning : status ≠ running) (hfailed : status.isTerminalFailure ≠ true) :
    status = succeeded := by
  cases status <;> simp_all [isTerminalFailure]

end ExecutionStatus

/-- A text and its `repr`. -/
structure ReprText where
  value : String
  shown : String
  deriving DecidableEq

/-- A value that is given for a status. -/
inductive StatusValue
  | status (value : ExecutionStatus)
  | text (value : ReprText)
  | other
  deriving DecidableEq

/-- A key of a mapping of statuses: a text, or another object by its `str`. -/
inductive StatusKey
  | text (value : String)
  | other (shown : String)
  deriving DecidableEq

def StatusKey.shown : StatusKey → String
  | text value => value
  | other shown => shown

/-- The argument of `plan`. -/
inductive StatusesArgument
  | none
  | mapping (entries : List (StatusKey × StatusValue))
  | other

/-- The first argument of `TaskGraph`, whose items are nodes or other objects. -/
inductive NodesArgument (Node : Type)
  | sequence (items : List (Option Node))
  | other

/-- `isinstance(nodes, (list, tuple))`, with the items. -/
def NodesArgument.items? {Node : Type} : NodesArgument Node → Option (List (Option Node))
  | sequence items => some items
  | other => none

/-! ## Nodes -/

/-- The arguments of `TaskNode`. -/
structure NodeFields where
  nodeId : PyValue
  role : PyValue
  dependencies : PyValue := .tuple []
  maxAttempts : PyValue := .int 3
  timeoutSeconds : PyValue := .int 300
  resourceUnits : PyValue := .int 1

structure TaskNode where
  nodeId : Name
  role : Name
  dependencies : List Name
  maxAttempts : ℕ
  timeoutSeconds : ℕ
  resourceUnits : ℕ
  distinct : dependencies.Nodup
  irreflexive : nodeId ∉ dependencies
  attempts_pos : 1 ≤ maxAttempts
  timeout_pos : 1 ≤ timeoutSeconds
  units_pos : 1 ≤ resourceUnits
  deriving DecidableEq

/-- A text that is an identifier. -/
def name? (value : PyValue) : Option Name :=
  value.text?.bind fun text =>
    if hname : isBlank text = false ∧ isName text = true then some ⟨text, hname.2⟩ else none

/-- `isinstance(value, tuple)`, with the items. -/
def tuple? : PyValue → Option (List PyValue)
  | .tuple items => some items
  | _ => none

/-- An integer, but no boolean, that is at least one. -/
def positive? : PyValue → Option { number : ℕ // 1 ≤ number }
  | .int value => if hvalue : 1 ≤ value then some ⟨value.toNat, by omega⟩ else none
  | _ => none

/-- `TaskNode(...)` with its `__post_init__`. -/
def TaskNode.construct (fields : NodeFields) : Except Raised TaskNode := do
  let nodeId ← orRaise (taskGraphError "node_id must be a valid non-empty identifier")
    (name? fields.nodeId)
  let role ← orRaise (taskGraphError "role must be a valid non-empty identifier")
    (name? fields.role)
  let items ← orRaise (taskGraphError "dependencies must be a tuple of node IDs")
    (tuple? fields.dependencies)
  let dependencies ← orRaise
    (taskGraphError "dependencies must contain valid non-empty node IDs") (items.mapM name?)
  if distinct : dependencies.Nodup then
    if irreflexive : nodeId ∉ dependencies then do
      let maxAttempts ← orRaise (taskGraphError "max_attempts must be a positive integer")
        (positive? fields.maxAttempts)
      let timeoutSeconds ← orRaise
        (taskGraphError "timeout_seconds must be a positive integer")
        (positive? fields.timeoutSeconds)
      let resourceUnits ← orRaise
        (taskGraphError "resource_units must be a positive integer")
        (positive? fields.resourceUnits)
      return {
        nodeId := nodeId
        role := role
        dependencies := dependencies
        maxAttempts := maxAttempts.1
        timeoutSeconds := timeoutSeconds.1
        resourceUnits := resourceUnits.1
        distinct := distinct
        irreflexive := irreflexive
        attempts_pos := maxAttempts.2
        timeout_pos := timeoutSeconds.2
        units_pos := resourceUnits.2
      }
    else .error (taskGraphError "a task cannot depend on itself")
  else .error (taskGraphError "dependencies must not contain duplicates")

/-! ## Graphs -/

/-- The node of an identifier. -/
def nodeOf (nodes : List TaskNode) (nodeId : Name) : Option TaskNode :=
  nodes.find? fun node => node.nodeId = nodeId

def dependenciesOf (nodes : List TaskNode) (nodeId : Name) : List Name :=
  ((nodeOf nodes nodeId).map TaskNode.dependencies).getD []

/-- The checks of each node: its dependencies are known and it fits the budget. -/
def checkNodes (known : List Name) (maxResourceUnits : ℕ) : List TaskNode → Except Raised Unit
  | [] => .ok ()
  | node :: rest => do
      let unknown := sorted
        ((node.dependencies.filter fun dependency => dependency ∉ known).map Subtype.val)
      let names := ", ".intercalate unknown
      raiseUnless (unknown = [])
        (taskGraphError s!"task '{node.nodeId.val}' has unknown dependencies: {names}")
      raiseUnless (node.resourceUnits ≤ maxResourceUnits)
        (taskGraphError s!"task '{node.nodeId.val}' exceeds the graph resource budget")
      checkNodes known maxResourceUnits rest

/-- `_validate_acyclic`, whose `visit` is the depth-first visit of the dependencies. -/
def validateAcyclic (nodes : List TaskNode) : Except Raised (List Name) :=
  DepthFirst.walk (dependenciesOf nodes) (taskGraphError "task dependencies contain a cycle")
    (nodes.map TaskNode.nodeId)

/-- A graph that passed the checks of its constructor. -/
structure TaskGraph where
  nodes : List TaskNode
  maxParallelism : ℕ
  maxResourceUnits : ℕ
  order : List Name
  parallelism_pos : 1 ≤ maxParallelism
  resources_pos : 1 ≤ maxResourceUnits
  distinct : (nodes.map TaskNode.nodeId).Nodup
  checked : checkNodes (nodes.map TaskNode.nodeId) maxResourceUnits nodes = .ok ()
  ordered : validateAcyclic nodes = .ok order

/-- `TaskGraph(...)`. -/
def TaskGraph.construct (nodes : NodesArgument TaskNode)
    (maxParallelism maxResourceUnits : PyValue) : Except Raised TaskGraph := do
  let items ← orRaise (taskGraphError "nodes must be a non-empty list or tuple") nodes.items?
  raiseUnless (items ≠ []) (taskGraphError "nodes must be a non-empty list or tuple")
  let maxParallelism ← orRaise (taskGraphError "max_parallelism must be a positive integer")
    (positive? maxParallelism)
  let maxResourceUnits ← orRaise
    (taskGraphError "max_resource_units must be a positive integer")
    (positive? maxResourceUnits)
  let nodes ← orRaise (taskGraphError "nodes must contain TaskNode values") (items.mapM id)
  if distinct : (nodes.map TaskNode.nodeId).Nodup then do
    let checked ← returned
      (checkNodes (nodes.map TaskNode.nodeId) maxResourceUnits.1 nodes)
    let order ← returned (validateAcyclic nodes)
    return {
      nodes := nodes
      maxParallelism := maxParallelism.1
      maxResourceUnits := maxResourceUnits.1
      order := order.1
      parallelism_pos := maxParallelism.2
      resources_pos := maxResourceUnits.2
      distinct := distinct
      checked := checked.2
      ordered := order.2
    }
  else .error (taskGraphError "node IDs must be unique")

/-! ## Accepted graphs -/

theorem node_of_checkNodes {known : List Name} {maxResourceUnits : ℕ} {nodes : List TaskNode}
    (hok : checkNodes known maxResourceUnits nodes = .ok ()) {node : TaskNode}
    (hnode : node ∈ nodes) :
    (∀ dependency ∈ node.dependencies, dependency ∈ known) ∧
      node.resourceUnits ≤ maxResourceUnits := by
  induction nodes with
  | nil => exact absurd hnode List.not_mem_nil
  | cons first rest ih =>
      rw [checkNodes] at hok
      obtain ⟨hknown, hok⟩ := raiseUnless_bind_eq_ok hok
      obtain ⟨hfits, hrest⟩ := raiseUnless_bind_eq_ok hok
      rcases List.mem_cons.mp hnode with rfl | hmem
      · have hall : ∀ dependency ∈ node.dependencies, dependency ∈ known := by
          intro dependency hdependency
          by_contra hunknown
          have hmem : dependency.val ∈ sorted ((node.dependencies.filter fun dependency =>
              dependency ∉ known).map Subtype.val) := by
            rw [mem_sorted]
            exact List.mem_map_of_mem (List.mem_filter.mpr ⟨hdependency, by simpa using hunknown⟩)
          rw [hknown] at hmem
          exact List.not_mem_nil hmem
        exact ⟨hall, hfits⟩
      · exact ih hrest hmem

theorem mem_of_nodeOf {nodes : List TaskNode} {nodeId : Name} {node : TaskNode}
    (hfound : nodeOf nodes nodeId = some node) : node ∈ nodes ∧ node.nodeId = nodeId := by
  rw [nodeOf] at hfound
  exact ⟨List.mem_of_find?_eq_some hfound, by simpa using List.find?_some hfound⟩

theorem eq_map_some_of_mapM {items : List (Option TaskNode)} {nodes : List TaskNode}
    (hnodes : items.mapM id = some nodes) : items = nodes.map some := by
  induction items generalizing nodes with
  | nil =>
      obtain rfl := Option.some.inj hnodes
      rfl
  | cons first rest ih =>
      simp only [List.mapM_cons, Option.bind_eq_bind, Option.bind_eq_some_iff, id_eq,
        Option.pure_def, Option.some.injEq] at hnodes
      obtain ⟨node, rfl, later, hlater, rfl⟩ := hnodes
      rw [ih hlater, List.map_cons]

namespace TaskGraph

variable (graph : TaskGraph)

/-- `self._nodes.keys()`. -/
def nodeIds : List Name := graph.nodes.map TaskNode.nodeId

def dependencies (nodeId : Name) : List Name := dependenciesOf graph.nodes nodeId

def resourceUnits (nodeId : Name) : ℕ :=
  ((nodeOf graph.nodes nodeId).map TaskNode.resourceUnits).getD 0

variable {graph}

theorem nodeOf_eq_some {node : TaskNode} (hnode : node ∈ graph.nodes) :
    nodeOf graph.nodes node.nodeId = some node :=
  Table.find?_of_nodup graph.distinct hnode

theorem dependencies_eq {node : TaskNode} (hnode : node ∈ graph.nodes) :
    graph.dependencies node.nodeId = node.dependencies := by
  rw [dependencies, dependenciesOf, nodeOf_eq_some hnode]
  rfl

theorem resourceUnits_eq {node : TaskNode} (hnode : node ∈ graph.nodes) :
    graph.resourceUnits node.nodeId = node.resourceUnits := by
  rw [resourceUnits, nodeOf_eq_some hnode]
  rfl

theorem mem_nodeIds {nodeId : Name} :
    nodeId ∈ graph.nodeIds ↔ ∃ node ∈ graph.nodes, node.nodeId = nodeId :=
  List.mem_map

theorem dependencies_known {nodeId dependency : Name} (hnode : nodeId ∈ graph.nodeIds)
    (hdependency : dependency ∈ graph.dependencies nodeId) : dependency ∈ graph.nodeIds := by
  obtain ⟨node, hmem, rfl⟩ := mem_nodeIds.mp hnode
  rw [dependencies_eq hmem] at hdependency
  exact (node_of_checkNodes graph.checked hmem).1 dependency hdependency

theorem resourceUnits_le {nodeId : Name} (hnode : nodeId ∈ graph.nodeIds) :
    graph.resourceUnits nodeId ≤ graph.maxResourceUnits := by
  obtain ⟨node, hmem, rfl⟩ := mem_nodeIds.mp hnode
  rw [resourceUnits_eq hmem]
  exact (node_of_checkNodes graph.checked hmem).2

variable (graph)

/-- The order of a graph lists each node once and after its dependencies. -/
theorem order_spec : IsTopological graph.dependencies graph.order ∧ graph.order.Nodup ∧
    ∀ nodeId, nodeId ∈ graph.order ↔ nodeId ∈ graph.nodeIds :=
  DepthFirst.reached_of_walk (fun _ hnode _ hdependency => dependencies_known hnode hdependency)
    graph.ordered

/-- No node of a graph depends on itself, not even through other nodes. -/
theorem acyclic : ¬DepthFirst.Cyclic graph.dependencies := by
  have houtside : ∀ nodeId, nodeId ∉ graph.nodeIds → graph.dependencies nodeId = [] := by
    intro nodeId houtside
    have hnone : nodeOf graph.nodes nodeId = none :=
      List.find?_eq_none.mpr fun node hnode heq =>
        houtside (mem_nodeIds.mpr ⟨node, hnode, of_decide_eq_true heq⟩)
    rw [dependencies, dependenciesOf, hnone]
    rfl
  exact (DepthFirst.walk_eq_ok_iff
    (fun _ hnode _ hdependency => dependencies_known hnode hdependency) houtside).mp
    ⟨graph.order, graph.ordered⟩

/-- An accepted graph has the nodes that were given. -/
theorem nodes_of_construct {nodes : NodesArgument TaskNode}
    {maxParallelism maxResourceUnits : PyValue}
    (hok : construct nodes maxParallelism maxResourceUnits = .ok graph) :
    nodes = .sequence (graph.nodes.map some) := by
  unfold construct at hok
  obtain ⟨items, hitems, hok⟩ := orRaise_bind_eq_ok hok
  obtain ⟨-, hok⟩ := raiseUnless_bind_eq_ok hok
  obtain ⟨_, -, hok⟩ := orRaise_bind_eq_ok hok
  obtain ⟨_, -, hok⟩ := orRaise_bind_eq_ok hok
  obtain ⟨given, hgiven, hok⟩ := orRaise_bind_eq_ok hok
  split at hok
  case isFalse => cases hok
  case isTrue =>
    obtain ⟨_, -, hok⟩ := bind_eq_ok hok
    obtain ⟨_, -, hok⟩ := bind_eq_ok hok
    obtain rfl := Except.ok.inj hok
    cases nodes with
    | other => cases hitems
    | sequence listed =>
        obtain rfl := Option.some.inj hitems
        exact congrArg NodesArgument.sequence (eq_map_some_of_mapM hgiven)

end TaskGraph

end AegisForge.Orchestrator
