import AegisForge.ScamIntelligence.EntityLinker
import AegisForge.ScamIntelligence.ScamInvestigator

/-!
# Failed transactions

The exploration passes over failed transactions, but it hands them to the stages
after it.  Flows, clusters and links are supported by transactions that succeeded
if no failed transaction is one that the tracer or the linker would take.
-/

namespace AegisForge.ScamIntelligence

open AegisForge.Core.Layers

/-! ## Clusters -/

/-- A cluster, with its confidence in hundredths. -/
structure AddressCluster where
  clusterId : String
  addresses : List String
  reasons : List String
  confidence : ℕ

namespace AddressClusterer

variable (runtime : Runtime)

def clusterAddresses (flows : List FlowEdge) (seed : String) : List String :=
  flows.foldl (fun addresses flow =>
    addTo (addTo addresses (runtime.lower flow.source)) (runtime.lower flow.target))
    [runtime.lower seed]

def flowReason (flow : FlowEdge) : String :=
  "Observed transaction flow: " ++ flow.source ++ " -> " ++ flow.target

def clusterFromFlows (flows : List FlowEdge) (seed : String) : List AddressCluster :=
  let addresses := clusterAddresses runtime flows seed
  if addresses.length ≤ 1 then []
  else [{
    clusterId := "FLOW-" ++ String.ofList ((runtime.lower seed).toList.take 12)
    addresses := addresses.mergeSort
    reasons := flows.map flowReason
    confidence := 50 }]

variable {runtime}

/-- The seed or an end of a flow. -/
def IsEnd (runtime : Runtime) (flows : List FlowEdge) (seed address : String) : Prop :=
  address = runtime.lower seed ∨ ∃ flow ∈ flows,
    address = runtime.lower flow.source ∨ address = runtime.lower flow.target

theorem forall_mem_clusterAddresses (flows : List FlowEdge) (seed : String) :
    ∀ address ∈ clusterAddresses runtime flows seed, IsEnd runtime flows seed address := by
  rw [clusterAddresses]
  refine List.foldlRecOn (motive := fun addresses => ∀ address ∈ addresses, IsEnd runtime flows
    seed address) flows _ ?_ ?_
  · exact fun address hmem => Or.inl (List.mem_singleton.mp hmem)
  · intro addresses hbefore flow hflow address hmem
    rcases mem_addTo.mp hmem with hmem | rfl
    · rcases mem_addTo.mp hmem with hmem | rfl
      · exact hbefore address hmem
      · exact Or.inr ⟨flow, hflow, Or.inl rfl⟩
    · exact Or.inr ⟨flow, hflow, Or.inr rfl⟩

/-- A member of a cluster other than the seed is an end of a flow. -/
theorem exists_flow_of_mem {flows : List FlowEdge} {seed address : String}
    {cluster : AddressCluster} (hcluster : cluster ∈ clusterFromFlows runtime flows seed)
    (hmem : address ∈ cluster.addresses) (hother : address ≠ runtime.lower seed) :
    ∃ flow ∈ flows,
      address = runtime.lower flow.source ∨ address = runtime.lower flow.target := by
  rw [clusterFromFlows] at hcluster
  split at hcluster
  case isTrue => cases hcluster
  case isFalse =>
    obtain rfl := List.mem_singleton.mp hcluster
    exact (forall_mem_clusterAddresses flows seed address
      (List.mem_mergeSort.mp hmem)).resolve_left hother

end AddressClusterer

namespace ScamInvestigator

variable {Index : Type} (runtime : Runtime) (collector : String → ℤ → List (Transaction Index))

/-- The transactions that the exploration hands to the tracer and to the linker. -/
def handedOver (seed : String) (depth limit : ℤ) : List (Transaction Index) :=
  (search runtime collector (runtime.lower seed) depth limit).found.allTransactions

def clusters (seed : String) (depth limit : ℤ) : List AddressCluster :=
  AddressClusterer.clusterFromFlows runtime
    (investigate runtime collector seed depth limit).flows (runtime.lower seed)

def entityLinks (seed : String) (depth limit : ℤ) : List EntityLinker.EntityLink :=
  EntityLinker.link runtime (investigate runtime collector seed depth limit).transactions

/-! ## Support -/

/-- A transaction that succeeded is the flow. -/
def FlowSupported (transactions : List (Transaction Index)) (flow : FlowEdge) : Prop :=
  ∃ tx ∈ transactions, tx.success = true ∧ tx.txHash = flow.txHash ∧
    runtime.lower tx.fromAddress = flow.source ∧ runtime.lower tx.toAddress = flow.target

/-- A transaction that succeeded has the address for its sender or its recipient. -/
def MemberSupported (transactions : List (Transaction Index)) (address : String) : Prop :=
  ∃ tx ∈ transactions, tx.success = true ∧
    (runtime.lower tx.fromAddress = address ∨ runtime.lower tx.toAddress = address)

/-- A transaction that succeeded is evidence for the link. -/
def LinkSupported (transactions : List (Transaction Index))
    (entityLink : EntityLinker.EntityLink) : Prop :=
  ∃ tx ∈ transactions, tx.success = true ∧ tx.txHash ∈ entityLink.txHashes

/-- What an investigation finds is supported by collected transactions that succeeded,
and failed ones give neither flows nor links of a direct transfer. -/
structure FailedAreNoEvidence (seed : String) (depth limit : ℤ) : Prop where
  flows : ∀ flow ∈ (investigate runtime collector seed depth limit).flows,
    FlowSupported runtime (investigate runtime collector seed depth limit).transactions flow
  members : ∀ cluster ∈ clusters runtime collector seed depth limit,
    ∀ address ∈ cluster.addresses, address ≠ runtime.lower seed →
      MemberSupported runtime (investigate runtime collector seed depth limit).transactions
        address
  links : ∀ entityLink ∈ entityLinks runtime collector seed depth limit,
    LinkSupported (investigate runtime collector seed depth limit).transactions entityLink
  unflowed : ∀ tx ∈ (investigate runtime collector seed depth limit).transactions,
    tx.success = false →
      ∀ flow ∈ (investigate runtime collector seed depth limit).flows, flow.txHash ≠ tx.txHash
  unlinked : ∀ tx ∈ (investigate runtime collector seed depth limit).transactions,
    tx.success = false → ∀ entityLink ∈ entityLinks runtime collector seed depth limit,
      entityLink.relationType = .directTransfer → tx.txHash ∉ entityLink.txHashes

/-- The stages behind the exploration would pass over the transaction: it is not between
two addresses, and its sender is not reached from the seed. -/
structure PassedOver (transactions : List (Transaction Index)) (seed : String) (depth : ℤ)
    (tx : Transaction Index) : Prop where
  unlinkable : EntityLinker.isUsable tx = true → EntityLinker.transfer? runtime tx = none
  unreached : ∀ steps : ℕ, (steps : ℤ) ≤ depth →
    ¬Steps (TransactionTracer.sends runtime transactions) steps (runtime.lower seed)
      (runtime.lower tx.fromAddress)

variable {runtime} {collector} {seed : String} {depth limit : ℤ}

theorem eq_of_txHash_eq {tx other : Transaction Index}
    (htx : tx ∈ handedOver runtime collector seed depth limit)
    (hother : other ∈ handedOver runtime collector seed depth limit)
    (hsame : tx.txHash = other.txHash) : tx = other :=
  List.inj_on_of_nodup_map (nodup_txHash runtime collector seed depth limit) htx hother hsame

/-- A flow is one of the transactions, whose sender is reached within the depth. -/
theorem exists_of_mem_flows {flow : FlowEdge}
    (hflow : flow ∈ (investigate runtime collector seed depth limit).flows) :
    ∃ tx ∈ handedOver runtime collector seed depth limit,
      flow = TransactionTracer.flowEdge runtime tx flow.depth ∧ (flow.depth : ℤ) ≤ depth ∧
        Steps (TransactionTracer.sends runtime (handedOver runtime collector seed depth limit))
          flow.depth (runtime.lower seed) (runtime.lower tx.fromAddress) := by
  obtain ⟨⟨tx, htx, hedge, hsteps⟩, hless⟩ :=
    TransactionTracer.comesFrom_of_mem_buildFlows hflow
  rw [runtime.lower_lower] at hsteps
  exact ⟨tx, htx, hedge, by omega, hsteps⟩

/-- A hash of a link is that of a transaction between two addresses. -/
theorem exists_of_mem_txHashes {entityLink : EntityLinker.EntityLink} {hash : String}
    (hlink : entityLink ∈ entityLinks runtime collector seed depth limit)
    (hhash : hash ∈ entityLink.txHashes) :
    ∃ tx ∈ handedOver runtime collector seed depth limit, tx.txHash = hash ∧
      EntityLinker.isUsable tx = true ∧ EntityLinker.transfer? runtime tx ≠ none := by
  have hwritten := EntityLinker.mem_written_of_mem_link runtime hlink
  obtain ⟨transfer, htransfer, rfl⟩ :=
    (EntityLinker.evidence_of_mem_written hwritten).2 hash hhash
  obtain ⟨tx, htx, husable, hfound⟩ := (EntityLinker.mem_transfers_iff runtime).mp htransfer
  refine ⟨tx, htx, EntityLinker.txHash_of_transfer? hfound, husable, ?_⟩
  rw [hfound]
  exact Option.some_ne_none transfer

/-- A transaction between two addresses is evidence for their link of a direct transfer. -/
theorem exists_direct_of_transfer? {tx : Transaction Index}
    (htx : tx ∈ handedOver runtime collector seed depth limit)
    (husable : EntityLinker.isUsable tx = true)
    (hlinkable : EntityLinker.transfer? runtime tx ≠ none) :
    ∃ entityLink ∈ entityLinks runtime collector seed depth limit,
      entityLink.relationType = .directTransfer ∧ tx.txHash ∈ entityLink.txHashes := by
  obtain ⟨transfer, hfound⟩ := Option.ne_none_iff_exists'.mp hlinkable
  have hmem := (EntityLinker.mem_transfers_iff runtime).mpr ⟨tx, htx, husable, hfound⟩
  have hhash : tx.txHash ∈ EntityLinker.hashesBetween
      (EntityLinker.transfers runtime (handedOver runtime collector seed depth limit))
      transfer.source transfer.target := by
    rw [EntityLinker.txHash_of_transfer? hfound]
    exact EntityLinker.mem_hashesBetween.mpr hmem
  have hheld := EntityLinker.directTransfer_mem_held (List.ne_nil_of_mem hhash)
  exact ⟨_, (EntityLinker.link_perm_held runtime _).mem_iff.mpr hheld, rfl, hhash⟩

theorem passedOver_of_failedAreNoEvidence {tx : Transaction Index}
    (hclean : FailedAreNoEvidence runtime collector seed depth limit)
    (htx : tx ∈ handedOver runtime collector seed depth limit) (hfailed : tx.success = false) :
    PassedOver runtime (handedOver runtime collector seed depth limit) seed depth tx := by
  constructor
  case unlinkable =>
    intro husable
    by_contra hlinkable
    obtain ⟨entityLink, hlink, hdirect, hhash⟩ := exists_direct_of_transfer? htx husable hlinkable
    exact hclean.unlinked tx htx hfailed entityLink hlink hdirect hhash
  case unreached =>
    intro steps hfew hsteps
    have hreached : Steps (TransactionTracer.sends runtime
        (handedOver runtime collector seed depth limit)) steps
        (runtime.lower (runtime.lower seed)) (runtime.lower tx.fromAddress) := by
      rwa [runtime.lower_lower]
    obtain ⟨level, hflow⟩ := TransactionTracer.flows_buildFlows
      (nodup_txHash runtime collector seed depth limit)
      (show (steps : ℤ) < depth + 1 by omega) htx hreached
    exact hclean.unflowed tx htx hfailed _ hflow rfl

section PassedOver

variable (hpassed : ∀ tx ∈ handedOver runtime collector seed depth limit, tx.success = false →
  PassedOver runtime (handedOver runtime collector seed depth limit) seed depth tx)
include hpassed

theorem flowSupported_of_passedOver {flow : FlowEdge}
    (hflow : flow ∈ (investigate runtime collector seed depth limit).flows) :
    FlowSupported runtime (handedOver runtime collector seed depth limit) flow := by
  obtain ⟨tx, htx, hedge, hfew, hsteps⟩ := exists_of_mem_flows hflow
  refine ⟨tx, htx, ?_, ?_⟩
  · by_contra hfailed
    exact (hpassed tx htx (Bool.eq_false_of_not_eq_true hfailed)).unreached _ hfew hsteps
  · rw [hedge]
    exact ⟨rfl, rfl, rfl⟩

theorem failedAreNoEvidence_of_passedOver :
    FailedAreNoEvidence runtime collector seed depth limit := by
  constructor
  case flows => exact fun flow hflow => flowSupported_of_passedOver hpassed hflow
  case members =>
    intro cluster hcluster address haddress hother
    obtain ⟨flow, hflow, hend⟩ := AddressClusterer.exists_flow_of_mem hcluster haddress
      (by rwa [runtime.lower_lower])
    obtain ⟨tx, htx, hsuccess, -, hsource, htarget⟩ := flowSupported_of_passedOver hpassed hflow
    refine ⟨tx, htx, hsuccess, ?_⟩
    rw [← hsource, ← htarget, runtime.lower_lower, runtime.lower_lower] at hend
    exact hend.imp Eq.symm Eq.symm
  case links =>
    intro entityLink hlink
    have hwritten := EntityLinker.mem_written_of_mem_link runtime hlink
    obtain ⟨hash, hhash⟩ :=
      List.exists_mem_of_ne_nil _ (EntityLinker.evidence_of_mem_written hwritten).1
    obtain ⟨tx, htx, rfl, husable, hlinkable⟩ := exists_of_mem_txHashes hlink hhash
    refine ⟨tx, htx, ?_, hhash⟩
    by_contra hfailed
    exact hlinkable ((hpassed tx htx (Bool.eq_false_of_not_eq_true hfailed)).unlinkable husable)
  case unflowed =>
    intro tx htx hfailed flow hflow hsame
    obtain ⟨other, hother, hedge, hfew, hsteps⟩ := exists_of_mem_flows hflow
    have hhash : other.txHash = tx.txHash := by
      rw [← hsame, hedge]
      rfl
    rw [eq_of_txHash_eq hother htx hhash] at hsteps
    exact (hpassed tx htx hfailed).unreached _ hfew hsteps
  case unlinked =>
    intro tx htx hfailed entityLink hlink _ hhash
    obtain ⟨other, hother, hsame, husable, hlinkable⟩ := exists_of_mem_txHashes hlink hhash
    rw [eq_of_txHash_eq hother htx hsame] at husable hlinkable
    exact hlinkable ((hpassed tx htx hfailed).unlinkable husable)

end PassedOver

/-- Failed transactions are no evidence exactly if the tracer and the linker would pass
over every failed transaction that they are handed. -/
theorem failedAreNoEvidence_iff (runtime : Runtime)
    (collector : String → ℤ → List (Transaction Index)) (seed : String) (depth limit : ℤ) :
    FailedAreNoEvidence runtime collector seed depth limit ↔
      ∀ tx ∈ handedOver runtime collector seed depth limit, tx.success = false →
        PassedOver runtime (handedOver runtime collector seed depth limit) seed depth tx :=
  ⟨fun hclean _ => passedOver_of_failedAreNoEvidence hclean, failedAreNoEvidence_of_passedOver⟩

/-! ## A payment that failed -/

/-- The seed has one transaction, which failed. -/
def failingCollector (address : String) (_limit : ℤ) : List (Transaction (Option ℕ)) :=
  if address = "0x11" then [{ payment with success := false }] else []

/-- A failed payment is a flow. -/
theorem not_failedAreNoEvidence_payment :
    ¬FailedAreNoEvidence lowerCaseRuntime failingCollector "0x11" 0 50 := by
  intro hclean
  have htx : { payment with success := false } ∈
      handedOver lowerCaseRuntime failingCollector "0x11" 0 50 := by decide
  exact (passedOver_of_failedAreNoEvidence hclean htx rfl).unreached 0 le_rfl rfl

end ScamInvestigator

end AegisForge.ScamIntelligence
