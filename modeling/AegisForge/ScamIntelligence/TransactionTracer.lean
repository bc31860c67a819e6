import Mathlib.Algebra.Order.Ring.Int
import Mathlib.Data.List.Nodup
import AegisForge.Core.Layers

/-!
# Transactions and their flows

Normalized transactions, the collector that joins native transactions and token
transfers, and the tracer that follows transactions from a seed.  The collector
tells transactions apart by hash, token and log index, the tracer by their hash.
-/

namespace AegisForge.ScamIntelligence

open AegisForge.Core.Layers

/-- `str.lower`, and the order in which a set is iterated. -/
structure Runtime where
  lower : String → String
  lower_lower : ∀ text, lower (lower text) = lower text
  arrange : ℕ → List String → List String
  mem_arrange : ∀ round addresses address,
    address ∈ arrange round addresses ↔ address ∈ addresses

/-- Addresses that are taken in the order in which they stand. -/
theorem mem_inOrder (_ : ℕ) (addresses : List String) (address : String) :
    address ∈ addresses ↔ address ∈ addresses := Iff.rfl

/-- A transaction; of its metadata the log index is kept. -/
structure Transaction (Index : Type) where
  txHash : String
  fromAddress : String
  toAddress : String
  value : String := "0"
  token : String := "NATIVE"
  blockNumber : ℤ := 0
  timestamp : ℤ := 0
  success : Bool := true
  logIndex : Index
  deriving DecidableEq

structure FlowEdge where
  source : String
  target : String
  txHash : String
  value : String
  token : String
  depth : ℕ
  deriving DecidableEq

/-- `set.add`. -/
def addTo (addresses : List String) (address : String) : List String :=
  if address ∈ addresses then addresses else addresses ++ [address]

theorem mem_addTo {addresses : List String} {address other : String} :
    other ∈ addTo addresses address ↔ other ∈ addresses ∨ other = address := by
  rw [addTo]
  split
  case isTrue hmem =>
    constructor
    · exact Or.inl
    · rintro (hother | rfl)
      · exact hother
      · exact hmem
  case isFalse => rw [List.mem_append, List.mem_singleton]

variable {Index : Type}

/-- The identity of `UnifiedTransactionCollector`. -/
def Transaction.identity (tx : Transaction Index) : String × String × Index :=
  (tx.txHash, tx.token, tx.logIndex)

/-! ## The unified collector -/

namespace UnifiedTransactionCollector

variable [DecidableEq Index]

def keep (result : List (Transaction Index)) (tx : Transaction Index) :
    List (Transaction Index) :=
  if tx.identity ∈ result.map Transaction.identity then result else result ++ [tx]

/-- `reverse=True` of a stable sort: later blocks first, equal ones in their order. -/
def isAtLeast (left right : Transaction Index) : Bool :=
  right.blockNumber < left.blockNumber ||
    (left.blockNumber = right.blockNumber && right.timestamp ≤ left.timestamp)

/-- `collect` on the native transactions and token transfers of an address. -/
def collect (native erc20 : List (Transaction Index)) : List (Transaction Index) :=
  ((native ++ erc20).foldl keep []).mergeSort isAtLeast

end UnifiedTransactionCollector

/-! ## The tracer -/

namespace TransactionTracer

variable (runtime : Runtime)

def flowEdge (tx : Transaction Index) (depth : ℕ) : FlowEdge where
  source := runtime.lower tx.fromAddress
  target := runtime.lower tx.toAddress
  txHash := tx.txHash
  value := tx.value
  token := tx.token
  depth := depth

structure Trace where
  visited : List String := []
  flows : List FlowEdge := []
  nextAddresses : List String := []

def traceTransaction (current : List String) (depth : ℕ) (trace : Trace)
    (tx : Transaction Index) : Trace :=
  if runtime.lower tx.fromAddress ∉ current then trace
  else if tx.txHash ∈ trace.visited then trace
  else {
    visited := trace.visited ++ [tx.txHash]
    flows := trace.flows ++ [flowEdge runtime tx depth]
    nextAddresses := addTo trace.nextAddresses (runtime.lower tx.toAddress) }

/-- One round over all transactions. -/
def traceRound (transactions : List (Transaction Index)) (current : List String) (depth : ℕ)
    (trace : Trace) : Trace :=
  transactions.foldl (traceTransaction runtime current depth) { trace with nextAddresses := [] }

/-- The rounds that are left, from a depth on. -/
def traceRounds (transactions : List (Transaction Index)) :
    ℕ → ℕ → List String → Trace → Trace
  | 0, _, _, trace => trace
  | rounds + 1, depth, current, trace =>
      let after := traceRound runtime transactions current depth trace
      if after.nextAddresses = [] then after
      else traceRounds transactions rounds (depth + 1) after.nextAddresses after

def buildFlows (transactions : List (Transaction Index)) (seed : String) (maxDepth : ℤ) :
    List FlowEdge :=
  if maxDepth < 1 then []
  else (traceRounds runtime transactions maxDepth.toNat 0 [runtime.lower seed] {}).flows

/-! ## What a round adds -/

variable {runtime}

/-- The transaction is one of the flows, at some depth. -/
def Flows (runtime : Runtime) (tx : Transaction Index) (flows : List FlowEdge) : Prop :=
  ∃ depth, flowEdge runtime tx depth ∈ flows

/-- What going through some transactions does to a trace. -/
structure Grows (runtime : Runtime) (current : List String) (txs : List (Transaction Index))
    (before after : Trace) : Prop where
  visited : ∀ hash ∈ before.visited, hash ∈ after.visited
  flows : ∀ edge ∈ before.flows, edge ∈ after.flows
  next : ∀ address ∈ before.nextAddresses, address ∈ after.nextAddresses
  listed : ∀ hash ∈ after.visited, hash ∈ before.visited ∨
    ∃ tx ∈ txs, tx.txHash = hash ∧ Flows runtime tx after.flows
  added : ∀ edge ∈ after.flows, edge ∈ before.flows ∨ edge.target ∈ after.nextAddresses
  taken : ∀ tx ∈ txs, runtime.lower tx.fromAddress ∈ current → tx.txHash ∈ after.visited

theorem Grows.refl (current : List String) (trace : Trace) :
    Grows runtime current ([] : List (Transaction Index)) trace trace where
  visited _ hhash := hhash
  flows _ hedge := hedge
  next _ haddress := haddress
  listed _ hhash := Or.inl hhash
  added _ hedge := Or.inl hedge
  taken _ htx := absurd htx List.not_mem_nil

/-- Going through some transactions and then through more. -/
theorem Grows.trans {current : List String} {first rest : List (Transaction Index)}
    {before between after : Trace} (hfirst : Grows runtime current first before between)
    (hrest : Grows runtime current rest between after) :
    Grows runtime current (first ++ rest) before after where
  visited hash hhash := hrest.visited hash (hfirst.visited hash hhash)
  flows edge hedge := hrest.flows edge (hfirst.flows edge hedge)
  next address haddress := hrest.next address (hfirst.next address haddress)
  listed hash hhash := by
    rcases hrest.listed hash hhash with hbetween | ⟨tx, htx, hsame, hflows⟩
    · rcases hfirst.listed hash hbetween with hbefore | ⟨tx, htx, hsame, depth, hedge⟩
      · exact Or.inl hbefore
      · exact Or.inr ⟨tx, List.mem_append_left _ htx, hsame, depth, hrest.flows _ hedge⟩
    · exact Or.inr ⟨tx, List.mem_append_right _ htx, hsame, hflows⟩
  added edge hedge := by
    rcases hrest.added edge hedge with hbetween | hnext
    · exact (hfirst.added edge hbetween).imp id (hrest.next edge.target)
    · exact Or.inr hnext
  taken tx htx hcurrent := by
    rcases List.mem_append.mp htx with htx | htx
    · exact hrest.visited _ (hfirst.taken tx htx hcurrent)
    · exact hrest.taken tx htx hcurrent

theorem grows_traceTransaction (current : List String) (depth : ℕ) (trace : Trace)
    (tx : Transaction Index) :
    Grows runtime current [tx] trace (traceTransaction runtime current depth trace tx) := by
  have hkept : (runtime.lower tx.fromAddress ∈ current → tx.txHash ∈ trace.visited) →
      Grows runtime current [tx] trace trace := by
    intro htaken
    refine ⟨fun _ h => h, fun _ h => h, fun _ h => h, fun _ => Or.inl, fun _ => Or.inl, ?_⟩
    intro other hother hcurrent
    rw [List.mem_singleton.mp hother] at hcurrent ⊢
    exact htaken hcurrent
  rw [traceTransaction]
  split
  case isTrue haway => exact hkept fun hcurrent => absurd hcurrent haway
  case isFalse =>
    split
    case isTrue hvisited => exact hkept fun _ => hvisited
    case isFalse =>
      constructor
      · exact fun _ hhash => List.mem_append_left _ hhash
      · exact fun _ hedge => List.mem_append_left _ hedge
      · exact fun _ haddress => mem_addTo.mpr (Or.inl haddress)
      · intro hash hhash
        refine (List.mem_append.mp hhash).imp id fun hnew => ?_
        refine ⟨tx, List.mem_singleton_self tx, (List.mem_singleton.mp hnew).symm, depth, ?_⟩
        exact List.mem_append_right _ (List.mem_singleton_self _)
      · intro edge hedge
        refine (List.mem_append.mp hedge).imp id fun hnew => ?_
        rw [List.mem_singleton.mp hnew]
        exact mem_addTo.mpr (Or.inr rfl)
      · intro other hother _
        rw [List.mem_singleton.mp hother]
        exact List.mem_append_right _ (List.mem_singleton_self _)

theorem grows_foldl (current : List String) (depth : ℕ) (txs : List (Transaction Index))
    (trace : Trace) :
    Grows runtime current txs trace
      (txs.foldl (traceTransaction runtime current depth) trace) := by
  induction txs generalizing trace with
  | nil => exact Grows.refl current trace
  | cons tx rest ih => exact (grows_traceTransaction current depth trace tx).trans (ih _)

/-! ## The search -/

/-- A transaction from one address to another. -/
def sends (runtime : Runtime) (transactions : List (Transaction Index))
    (source target : String) : Prop :=
  ∃ tx ∈ transactions, runtime.lower tx.fromAddress = source ∧
    runtime.lower tx.toAddress = target

/-- All transactions from the address are flows. -/
def Settled (runtime : Runtime) (transactions : List (Transaction Index))
    (flows : List FlowEdge) (address : String) : Prop :=
  ∀ tx ∈ transactions, runtime.lower tx.fromAddress = address → Flows runtime tx flows

/-- What holds before a round: a hash is visited when its transaction is a flow,
and a flow leads to a settled address or to a current one. -/
structure Traced (runtime : Runtime) (transactions : List (Transaction Index))
    (current : List String) (trace : Trace) : Prop where
  listed : ∀ hash ∈ trace.visited, ∃ tx ∈ transactions, tx.txHash = hash ∧
    Flows runtime tx trace.flows
  follows : ∀ edge ∈ trace.flows, Settled runtime transactions trace.flows edge.target ∨
    edge.target ∈ current

variable {transactions : List (Transaction Index)} {current : List String} {trace : Trace}

theorem Settled.mono {flows more : List FlowEdge} {address : String}
    (hmore : ∀ edge ∈ flows, edge ∈ more)
    (hsettled : Settled runtime transactions flows address) :
    Settled runtime transactions more address := by
  intro tx htx hsource
  obtain ⟨depth, hedge⟩ := hsettled tx htx hsource
  exact ⟨depth, hmore _ hedge⟩

theorem Traced.closed (htraced : Traced runtime transactions current trace) :
    Closed (sends runtime transactions) (Settled runtime transactions trace.flows)
      (· ∈ current) := by
  rintro source target hsettled ⟨tx, htx, hsource, rfl⟩
  obtain ⟨depth, hedge⟩ := hsettled tx htx hsource
  exact htraced.follows _ hedge

/-- A round settles the current addresses; the hashes tell transactions apart. -/
theorem traced_traceRound (hdistinct : (transactions.map Transaction.txHash).Nodup)
    (htraced : Traced runtime transactions current trace) (depth : ℕ) :
    let after := traceRound runtime transactions current depth trace
    Traced runtime transactions after.nextAddresses after ∧
      (∀ edge ∈ trace.flows, edge ∈ after.flows) ∧
        ∀ address ∈ current, Settled runtime transactions after.flows address := by
  intro after
  have hgrows : Grows runtime current transactions { trace with nextAddresses := [] } after :=
    grows_foldl current depth transactions _
  have hlisted : ∀ hash ∈ after.visited, ∃ tx ∈ transactions, tx.txHash = hash ∧
      Flows runtime tx after.flows := by
    intro hash hhash
    rcases hgrows.listed hash hhash with hbefore | hnew
    · obtain ⟨tx, htx, hsame, depth, hedge⟩ := htraced.listed hash hbefore
      exact ⟨tx, htx, hsame, depth, hgrows.flows _ hedge⟩
    · exact hnew
  have hsettled : ∀ address ∈ current, Settled runtime transactions after.flows address := by
    intro address haddress tx htx hsource
    obtain ⟨other, hother, hsame, hflows⟩ :=
      hlisted tx.txHash (hgrows.taken tx htx (hsource ▸ haddress))
    have heq : other = tx := List.inj_on_of_nodup_map hdistinct hother htx hsame
    exact heq ▸ hflows
  refine ⟨⟨hlisted, fun edge hedge => ?_⟩, hgrows.flows, hsettled⟩
  rcases hgrows.added edge hedge with hbefore | hnext
  · left
    rcases htraced.follows edge hbefore with hearlier | hcurrent
    · exact hearlier.mono hgrows.flows
    · exact hsettled _ hcurrent
  · exact Or.inr hnext

theorem rounds_traceRounds (hdistinct : (transactions.map Transaction.txHash).Nodup)
    (htraced : Traced runtime transactions current trace) (rounds depth : ℕ) :
    Rounds (sends runtime transactions) rounds (Settled runtime transactions trace.flows)
      (· ∈ current) (Settled runtime transactions
        (traceRounds runtime transactions rounds depth current trace).flows) := by
  induction rounds generalizing current depth trace with
  | zero => exact .done _ _
  | succ rounds ih =>
      obtain ⟨hafter, hkeeps, hsettled⟩ := traced_traceRound hdistinct htraced depth
      refine .round (fun _ => Settled.mono hkeeps) hsettled (fun _ => hafter.closed) ?_
      rw [traceRounds]
      split
      case isTrue hempty =>
        refine .empty rounds fun address haddress => ?_
        rw [hempty] at haddress
        cases haddress
      case isFalse => exact ih hafter (depth + 1)

/-- With one transaction for each hash, every transaction whose sender is reached
from the seed in fewer steps than there are rounds is a flow. -/
theorem flows_buildFlows (hdistinct : (transactions.map Transaction.txHash).Nodup)
    {seed : String} {maxDepth : ℤ} {steps : ℕ} (hfew : (steps : ℤ) < maxDepth)
    {tx : Transaction Index} (htx : tx ∈ transactions)
    (hreached : Steps (sends runtime transactions) steps (runtime.lower seed)
      (runtime.lower tx.fromAddress)) :
    Flows runtime tx (buildFlows runtime transactions seed maxDepth) := by
  have htraced : Traced runtime transactions [runtime.lower seed] {} :=
    ⟨fun _ hhash => absurd hhash List.not_mem_nil, fun _ hedge => absurd hedge List.not_mem_nil⟩
  rw [buildFlows, if_neg (by omega)]
  have hrounds := rounds_traceRounds hdistinct htraced maxDepth.toNat 0
  exact hrounds.reaches htraced.closed (Or.inr (List.mem_singleton_self _)) hreached (by omega) tx
    htx rfl

/-! ## Where flows come from -/

/-- The flow is of a transaction whose sender lies its depth behind the seed. -/
def ComesFrom (runtime : Runtime) (transactions : List (Transaction Index)) (seed : String)
    (edge : FlowEdge) : Prop :=
  ∃ tx ∈ transactions, edge = flowEdge runtime tx edge.depth ∧
    Steps (sends runtime transactions) edge.depth seed (runtime.lower tx.fromAddress)

/-- A trace within a round: its flows come from the seed, and so do the next addresses. -/
structure Sourced (runtime : Runtime) (transactions : List (Transaction Index)) (seed : String)
    (depth : ℕ) (trace : Trace) : Prop where
  flows : ∀ edge ∈ trace.flows, ComesFrom runtime transactions seed edge ∧ edge.depth ≤ depth
  next : ∀ address ∈ trace.nextAddresses,
    Steps (sends runtime transactions) (depth + 1) seed address

theorem sourced_traceTransaction {seed : String} {depth : ℕ} {tx : Transaction Index}
    (htrace : Sourced runtime transactions seed depth trace) (htx : tx ∈ transactions)
    (hcurrent : ∀ address ∈ current, Steps (sends runtime transactions) depth seed address) :
    Sourced runtime transactions seed depth
      (traceTransaction runtime current depth trace tx) := by
  rw [traceTransaction]
  split
  case isTrue => exact htrace
  case isFalse hsource =>
    have hreached := hcurrent _ (not_not.mp hsource)
    split
    case isTrue => exact htrace
    case isFalse =>
      refine ⟨fun edge hedge => ?_, fun address haddress => ?_⟩
      · rcases List.mem_append.mp hedge with hedge | hedge
        · exact htrace.flows edge hedge
        · obtain rfl := List.mem_singleton.mp hedge
          exact ⟨⟨tx, htx, rfl, hreached⟩, le_rfl⟩
      · rcases mem_addTo.mp haddress with haddress | rfl
        · exact htrace.next address haddress
        · exact hreached.concat ⟨tx, htx, rfl, rfl⟩

theorem sourced_traceRounds {seed : String} (rounds : ℕ) {depth : ℕ}
    (hflows : ∀ edge ∈ trace.flows,
      ComesFrom runtime transactions seed edge ∧ edge.depth < depth)
    (hcurrent : ∀ address ∈ current, Steps (sends runtime transactions) depth seed address) :
    ∀ edge ∈ (traceRounds runtime transactions rounds depth current trace).flows,
      ComesFrom runtime transactions seed edge ∧ edge.depth < rounds + depth := by
  induction rounds generalizing depth current trace with
  | zero => simpa [traceRounds] using hflows
  | succ rounds ih =>
      have hround : Sourced runtime transactions seed depth
          (traceRound runtime transactions current depth trace) := by
        refine List.foldlRecOn _ _ ⟨fun edge hedge => ?_, fun _ h => absurd h List.not_mem_nil⟩
          fun search hsearch tx htx => sourced_traceTransaction hsearch htx hcurrent
        exact ⟨(hflows edge hedge).1, (hflows edge hedge).2.le⟩
      have hnext : ∀ edge ∈ (traceRound runtime transactions current depth trace).flows,
          ComesFrom runtime transactions seed edge ∧ edge.depth < depth + 1 := fun edge hedge =>
        ⟨(hround.flows edge hedge).1, Nat.lt_succ_of_le (hround.flows edge hedge).2⟩
      intro edge hedge
      simp only [traceRounds] at hedge
      split at hedge
      · exact ⟨(hnext edge hedge).1, by have := (hnext edge hedge).2; omega⟩
      · obtain ⟨hcomes, hless⟩ := ih hnext hround.next edge hedge
        exact ⟨hcomes, by omega⟩

/-- Every flow is of a transaction whose sender is reached from the seed. -/
theorem comesFrom_of_mem_buildFlows {seed : String} {maxDepth : ℤ} {edge : FlowEdge}
    (hedge : edge ∈ buildFlows runtime transactions seed maxDepth) :
    ComesFrom runtime transactions (runtime.lower seed) edge ∧ (edge.depth : ℤ) < maxDepth := by
  rw [buildFlows] at hedge
  split at hedge
  case isTrue => cases hedge
  case isFalse =>
    have hseed : ∀ address ∈ [runtime.lower seed],
        Steps (sends runtime transactions) 0 (runtime.lower seed) address :=
      fun address haddress => (List.mem_singleton.mp haddress).symm
    obtain ⟨hcomes, hless⟩ := sourced_traceRounds maxDepth.toNat
      (fun _ h => absurd h List.not_mem_nil) hseed edge hedge
    exact ⟨hcomes, by omega⟩

end TransactionTracer

end AegisForge.ScamIntelligence
