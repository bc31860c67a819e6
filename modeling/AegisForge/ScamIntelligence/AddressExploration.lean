import AegisForge.ScamIntelligence.ScamInvestigator
import AegisForge.ScamIntelligence.TransferVerification

/-!
# The exploration of addresses

The rounds of an investigation are a breadth-first search: the addresses within
the depth are visited and have a node each, with their distance from the seed and
an address before them.  The answers of the node do not matter to it.
-/

namespace AegisForge.ScamIntelligence

open AegisForge.Core
open AegisForge.Core.Layers

namespace ScamInvestigator

/-! ## Verification of what is collected -/

/-- The metadata of a transaction, in the place of its log index. -/
abbrev Metadata := List (String × Json)

/-- The transaction that is verified. -/
def record (tx : Transaction Metadata) : TransferVerification.Transaction where
  txHash := tx.txHash
  fromAddress := .text tx.fromAddress
  toAddress := .text tx.toAddress
  value := .text tx.value
  token := .text tx.token
  blockNumber := tx.blockNumber
  success := tx.success
  metadata := tx.logIndex

def textOf (value : Json) : String := value.text?.getD ""

/-- `tx = self._verify_transaction(tx)`. -/
def verify (render : TransferVerification.Renderings) (rpc : Option TransferVerification.Rpc)
    (tx : Transaction Metadata) : Transaction Metadata :=
  let answer := TransferVerification.verifyTransaction render rpc (record tx)
  { txHash := answer.txHash
    fromAddress := textOf answer.fromAddress
    toAddress := textOf answer.toAddress
    value := textOf answer.value
    token := textOf answer.token
    blockNumber := answer.blockNumber
    timestamp := tx.timestamp
    success := answer.success
    logIndex := answer.metadata }

/-- Every transaction of an address has answers of its own; an address is collected
once. -/
def collectVerified (render : TransferVerification.Renderings)
    (answers : String → ℕ → Option TransferVerification.Rpc)
    (collector : String → ℤ → List (Transaction Metadata)) (address : String) (limit : ℤ) :
    List (Transaction Metadata) :=
  (collector address limit).mapIdx fun position tx => verify render (answers address position) tx

/-- A verification keeps the transaction apart from its metadata. -/
theorem verify_eq (render : TransferVerification.Renderings)
    (rpc : Option TransferVerification.Rpc) (tx : Transaction Metadata) :
    verify render rpc tx = { tx with logIndex := (verify render rpc tx).logIndex } := by
  have hbare := TransferVerification.bare_verifyTransaction render rpc (record tx)
  simp only [TransferVerification.Transaction.bare, record,
    TransferVerification.Transaction.mk.injEq] at hbare
  obtain ⟨hhash, hfrom, hto, hvalue, htoken, hblock, hsuccess, -⟩ := hbare
  simp only [verify, record, hhash, hfrom, hto, hvalue, htoken, hblock, hsuccess, textOf,
    Json.text?, Option.getD_some]

theorem discovers_verify_iff {runtime : Runtime} {render : TransferVerification.Renderings}
    {rpc : Option TransferVerification.Rpc} {address next : String} {tx : Transaction Metadata} :
    Discovers runtime address next (verify render rpc tx) ↔ Discovers runtime address next tx := by
  rw [verify_eq]
  rfl

/-- The answers of the node do not change what is discovered at an address. -/
theorem leads_collectVerified (runtime : Runtime) (render : TransferVerification.Renderings)
    (answers : String → ℕ → Option TransferVerification.Rpc)
    (collector : String → ℤ → List (Transaction Metadata)) (limit : ℤ) :
    leads runtime (collectVerified render answers collector) limit =
      leads runtime collector limit := by
  funext address next
  apply propext
  constructor
  · rintro ⟨tx, htx, hdiscovers⟩
    obtain ⟨position, hposition, rfl⟩ := List.mem_mapIdx.mp htx
    exact ⟨_, List.getElem_mem hposition, discovers_verify_iff.mp hdiscovers⟩
  · rintro ⟨tx, htx, hdiscovers⟩
    obtain ⟨position, hposition, rfl⟩ := List.mem_iff_getElem.mp htx
    exact ⟨_, List.mem_mapIdx.mpr ⟨position, hposition, rfl⟩, discovers_verify_iff.mpr hdiscovers⟩

/-! ## Nodes -/

/-- The node has its distance from the seed and, unless it is the seed, an address
before it that leads to it. -/
structure Placed (edge : String → String → Prop) (seed : String) (node : AddressNode) : Prop where
  distance : IsDistance edge seed node.address node.depth
  parent : node = ⟨seed, 0, none, none⟩ ∨ ∃ parent steps, node.parentAddress = some parent ∧
    edge parent node.address ∧ IsDistance edge seed parent steps ∧ node.depth = steps + 1

/-- The addresses that have a node. -/
def Search.names {Index : Type} (search : Search Index) : List String :=
  search.addressNodes.map AddressNode.address

/-- What holds of the nodes between the rounds. -/
structure Noted {Index : Type} (edge : String → String → Prop) (seed : String) (depth : ℤ)
    (search : Search Index) : Prop where
  nodup : search.names.Nodup
  placed : ∀ node ∈ search.addressNodes, Placed edge seed node ∧ (node.depth : ℤ) ≤ depth
  visited : ∀ address ∈ search.visitedAddresses, address ∈ search.names
  next : ∀ address ∈ search.nextFrontier, address ∈ search.names

/-- What holds of the nodes within a round: what is not further away than the
frontier has a node. -/
structure Noting {Index : Type} (edge : String → String → Prop) (seed : String) (depth : ℤ)
    (currentDepth : ℕ) (search : Search Index) : Prop extends Noted edge seed depth search where
  known : ∀ steps ≤ currentDepth, ∀ address, Steps edge steps seed address →
    address ∈ search.names

variable {Index : Type} {runtime : Runtime}
variable {collector : String → ℤ → List (Transaction Index)}
variable {depth limit : ℤ} {currentDepth : ℕ} {address seed : String}
variable {edge : String → String → Prop}

theorem Noting.add_node {before : Search Index} {related txHash : String}
    (hbefore : Noting edge seed depth currentDepth before) (hless : (currentDepth : ℤ) < depth)
    (hreached : Steps edge currentDepth seed address) (hedge : edge address related)
    (hnew : related ∉ before.names) :
    Noting edge seed depth currentDepth
      { before with
        addressNodes := before.addressNodes ++
          [⟨related, currentDepth + 1, some address, some txHash⟩] } := by
  have hmore : ∀ other ∈ before.names, other ∈ (before.addressNodes ++
      [AddressNode.mk related (currentDepth + 1) (some address) (some txHash)]).map
        AddressNode.address := by
    intro other hother
    rw [List.map_append]
    exact List.mem_append_left _ hother
  obtain ⟨haddress, hrelated⟩ := IsDistance.of_edge hreached hedge
    fun steps hsteps hfound => hnew (hbefore.known steps hsteps related hfound)
  refine ⟨⟨?_, fun node hnode => ?_, fun other hother => ?_, fun other hother => ?_⟩,
    fun steps hsteps other hother => ?_⟩
  · simp only [Search.names, List.map_append, List.map_cons, List.map_nil]
    rw [← List.concat_eq_append]
    exact hbefore.nodup.concat hnew
  · rcases List.mem_append.mp hnode with hnode | hnode
    · exact hbefore.placed node hnode
    · obtain rfl := List.mem_singleton.mp hnode
      refine ⟨⟨hrelated, Or.inr ⟨address, currentDepth, rfl, hedge, haddress, rfl⟩⟩, ?_⟩
      push_cast
      omega
  · exact hmore other (hbefore.visited other hother)
  · exact hmore other (hbefore.next other hother)
  · exact hmore other (hbefore.known steps hsteps other hother)

theorem noting_discover {before : Search Index} {related txHash : String}
    (hbefore : Noting edge seed depth currentDepth before)
    (hreached : Steps edge currentDepth seed address) (hedge : edge address related) :
    Noting edge seed depth currentDepth
      (discover depth currentDepth address txHash before related) := by
  have hnext : ∀ search : Search Index, Noting edge seed depth currentDepth search →
      related ∈ search.names → Noting edge seed depth currentDepth
        { search with
          nextFrontier :=
            if related ∈ before.visitedAddresses then search.nextFrontier
            else addTo search.nextFrontier related } := by
    intro search hsearch hnamed
    refine ⟨⟨hsearch.nodup, hsearch.placed, hsearch.visited, fun other hother => ?_⟩,
      hsearch.known⟩
    dsimp only at hother
    split at hother
    · exact hsearch.next other hother
    · rcases mem_addTo.mp hother with hother | rfl
      · exact hsearch.next other hother
      · exact hnamed
  rw [discover]
  split
  case isTrue => exact hbefore
  case isFalse hless =>
    by_cases hnamed : related ∈ before.addressNodes.map AddressNode.address
    · rw [if_pos hnamed]
      exact hnext before hbefore hnamed
    · rw [if_neg hnamed]
      refine hnext _ (hbefore.add_node (by omega) hreached hedge hnamed) ?_
      simp [Search.names]

theorem noting_takeTransaction {before : Search Index} {tx : Transaction Index}
    (hbefore : Noting (leads runtime collector limit) seed depth currentDepth before)
    (hreached : Steps (leads runtime collector limit) currentDepth seed address)
    (htx : tx ∈ collector address limit) :
    Noting (leads runtime collector limit) seed depth currentDepth
      (takeTransaction runtime depth currentDepth address before tx) := by
  have hfound : ∀ found : Found Index, Noting (leads runtime collector limit) seed depth currentDepth
      { before with found := found } :=
    fun _ => ⟨⟨hbefore.nodup, hbefore.placed, hbefore.visited, hbefore.next⟩, hbefore.known⟩
  rw [takeTransaction]
  split
  case isTrue => exact hbefore
  case isFalse hhash =>
    split
    case isTrue => exact hfound _
    case isFalse hdone =>
      refine List.foldlRecOn _ _ (hfound _) fun search hsearch related hrelated => ?_
      exact noting_discover hsearch hreached ⟨tx, htx, hhash, by simpa using hdone, hrelated⟩

theorem noting_visitAddress {before : Search Index} (hseed : runtime.lower seed = seed)
    (hbefore : Noting (leads runtime collector limit) seed depth currentDepth before)
    (hreached : Steps (leads runtime collector limit) currentDepth seed address) :
    Noting (leads runtime collector limit) seed depth currentDepth
      (visitAddress runtime collector depth limit currentDepth before address) := by
  simp only [visitAddress, lower_of_steps hseed hreached]
  split
  case isTrue => exact hbefore
  case isFalse =>
    refine List.foldlRecOn _ _ ?_ fun search hsearch tx htx =>
      noting_takeTransaction hsearch hreached htx
    refine ⟨⟨hbefore.nodup, hbefore.placed, fun other hother => ?_, hbefore.next⟩, hbefore.known⟩
    rcases List.mem_append.mp hother with hother | hother
    · exact hbefore.visited other hother
    · exact List.mem_singleton.mp hother ▸ hbefore.known currentDepth le_rfl address hreached

/-! ## Rounds -/

/-- Before a round the addresses at its depth are the frontier, and what is nearer
has been visited. -/
structure Level {Index : Type} (edge : String → String → Prop) (seed : String)
    (currentDepth : ℕ) (frontier : List String) (search : Search Index) : Prop where
  named : ∀ address ∈ frontier, address ∈ search.names
  nearer : ∀ steps < currentDepth, ∀ address, Steps edge steps seed address →
    address ∈ search.visitedAddresses
  here : ∀ address, Steps edge currentDepth seed address →
    address ∈ search.visitedAddresses ∨ address ∈ frontier

theorem noting_searchRound {before : Search Index} {frontier : List String}
    (hseed : runtime.lower seed = seed)
    (hbefore : Noted (leads runtime collector limit) seed depth before)
    (hlevel : Level (leads runtime collector limit) seed currentDepth frontier before)
    (hfrontier : ∀ address ∈ frontier,
      Steps (leads runtime collector limit) currentDepth seed address) :
    Noting (leads runtime collector limit) seed depth currentDepth
      (searchRound runtime collector depth limit currentDepth frontier before) := by
  refine List.foldlRecOn _ _ ?_ fun search hsearch address haddress =>
    noting_visitAddress hseed hsearch (hfrontier address ((runtime.mem_arrange _ _ _).mp haddress))
  refine ⟨⟨hbefore.nodup, hbefore.placed, hbefore.visited,
    fun _ h => absurd h List.not_mem_nil⟩, fun steps hsteps address haddress => ?_⟩
  rcases Nat.lt_or_eq_of_le hsteps with hless | rfl
  · exact hbefore.visited address (hlevel.nearer steps hless address haddress)
  · exact (hlevel.here address haddress).elim (hbefore.visited address) (hlevel.named address)

/-- The rounds note what they search, at its distance from the seed. -/
theorem noted_searchRounds (hseed : runtime.lower seed = seed) {rounds : ℕ}
    (hrounds : (rounds : ℤ) + currentDepth = depth + 1 ∨ rounds = 0) {frontier : List String}
    {before : Search Index}
    (hsearching : Searching runtime collector seed depth limit currentDepth frontier
      { before with nextFrontier := [] })
    (hbefore : Noted (leads runtime collector limit) seed depth before)
    (hlevel : 0 < rounds →
      Level (leads runtime collector limit) seed currentDepth frontier before) :
    Noted (leads runtime collector limit) seed depth
      (searchRounds runtime collector depth limit rounds currentDepth frontier before) := by
  induction rounds generalizing currentDepth frontier before with
  | zero => exact hbefore
  | succ rounds ih =>
      have hlevel := hlevel (Nat.succ_pos rounds)
      simp only [searchRounds]
      split
      case isTrue => exact hbefore
      case isFalse =>
        obtain ⟨hnext, htaken, hkeeps, hclosed⟩ :=
          searching_searchRound hseed (by omega) hsearching
        have hafter := noting_searchRound hseed hbefore hlevel hsearching.pending
        generalize searchRound runtime collector depth limit currentDepth frontier before = after
          at hnext htaken hkeeps hclosed hafter
        have hsearched : ∀ steps < currentDepth + 1, ∀ address,
            Steps (leads runtime collector limit) steps seed address →
              address ∈ after.visitedAddresses := by
          intro steps hsteps address haddress
          rcases Nat.lt_or_eq_of_le (Nat.le_of_lt_succ hsteps) with hless | rfl
          · exact hkeeps address (hlevel.nearer steps hless address haddress)
          · exact (hlevel.here address haddress).elim (hkeeps address) (htaken address)
        refine ih (by omega) hnext hafter.toNoted fun hmore => ?_
        refine ⟨hafter.next, hsearched, fun address haddress => ?_⟩
        obtain ⟨last, hlast, hleads⟩ := haddress.exists_last
        exact hclosed (by omega) last address
          (hsearched currentDepth (Nat.lt_succ_self _) last hlast) hleads

theorem noted_search (collector : String → ℤ → List (Transaction Index)) (depth : ℕ) (limit : ℤ)
    (hseed : runtime.lower seed = seed) :
    Noted (leads runtime collector limit) seed depth
      (search runtime collector seed depth limit) := by
  have hdistance : IsDistance (leads runtime collector limit) seed seed 0 :=
    ⟨rfl, fun _ hless => absurd hless (Nat.not_lt_zero _)⟩
  refine noted_searchRounds hseed (by omega) (searching_start collector depth limit) ?_ fun _ => ?_
  · refine ⟨List.nodup_singleton seed, fun node hnode => ?_, fun _ h => absurd h List.not_mem_nil,
      fun _ h => absurd h List.not_mem_nil⟩
    obtain rfl := List.mem_singleton.mp hnode
    exact ⟨⟨hdistance, Or.inl rfl⟩, Int.natCast_nonneg depth⟩
  · refine ⟨fun _ h => h, fun _ hless => absurd hless (Nat.not_lt_zero _), fun other hother => ?_⟩
    exact Or.inr (List.mem_singleton.mpr (Eq.symm hother))

/-! ## Breadth-first search -/

/-- The addresses at a distance of at most the depth are visited and have one node
each, which is placed at its distance. -/
structure IsBreadthFirst {Index : Type} (edge : String → String → Prop) (seed : String)
    (depth : ℕ) (result : Case Index) : Prop where
  visited : ∀ address, address ∈ result.visitedAddresses ↔
    ∃ distance ≤ depth, IsDistance edge seed address distance
  named : ∀ address, address ∈ result.addressNodes.map AddressNode.address ↔
    ∃ distance ≤ depth, IsDistance edge seed address distance
  nodup : (result.addressNodes.map AddressNode.address).Nodup
  placed : ∀ node ∈ result.addressNodes, Placed edge seed node

theorem explored_iff {depth : ℕ} :
    Explored runtime collector seed depth limit address ↔
      ∃ distance ≤ depth, IsDistance (leads runtime collector limit) (runtime.lower seed) address
        distance := by
  constructor
  · rintro ⟨steps, hfew, hsteps⟩
    obtain ⟨distance, hle, hdistance⟩ := hsteps.exists_isDistance
    exact ⟨distance, by omega, hdistance⟩
  · rintro ⟨distance, hle, hdistance⟩
    exact ⟨distance, by omega, hdistance.steps⟩

theorem isBreadthFirst_investigate (runtime : Runtime)
    (collector : String → ℤ → List (Transaction Index)) (seed : String) (depth : ℕ) (limit : ℤ) :
    IsBreadthFirst (leads runtime collector limit) (runtime.lower seed) depth
      (investigate runtime collector seed depth limit) := by
  have hnoted := noted_search collector depth limit (runtime.lower_lower seed)
  refine ⟨fun address => mem_visitedAddresses_iff.trans explored_iff, fun address => ⟨?_, ?_⟩,
    hnoted.nodup, fun node hnode => (hnoted.placed node hnode).1⟩
  · intro hnamed
    obtain ⟨node, hnode, rfl⟩ := List.mem_map.mp hnamed
    obtain ⟨hplaced, hle⟩ := hnoted.placed node hnode
    exact ⟨node.depth, by omega, hplaced.distance⟩
  · intro hdistance
    exact hnoted.visited address (mem_visitedAddresses_iff.mpr (explored_iff.mpr hdistance))

/-- Whatever the node answers about the transactions, and in whatever order the sets
are iterated, an investigation explores the addresses breadth first. -/
theorem explores_breadth_first (runtime : Runtime) (render : TransferVerification.Renderings)
    (answers : String → ℕ → Option TransferVerification.Rpc)
    (collector : String → ℤ → List (Transaction Metadata)) (seed : String) (depth : ℕ)
    (limit : ℤ) :
    IsBreadthFirst (leads runtime collector limit) (runtime.lower seed) depth
      (investigate runtime (collectVerified render answers collector) seed depth limit) := by
  rw [← leads_collectVerified runtime render answers collector limit]
  exact isBreadthFirst_investigate runtime _ seed depth limit

end ScamInvestigator

end AegisForge.ScamIntelligence
