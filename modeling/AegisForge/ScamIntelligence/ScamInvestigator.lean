import AegisForge.ScamIntelligence.TransactionTracer

/-!
# The investigation of a seed

The investigator visits addresses in layers, collects their transactions and
keeps one transaction of every hash.  It keeps every transfer when transactions
with one hash are one transfer at all the addresses that it explores.
-/

namespace AegisForge.ScamIntelligence

open AegisForge.Core.Layers

structure AddressNode where
  address : String
  depth : ℕ
  parentAddress : Option String
  discoveredFromTx : Option String

variable {Index : Type}

/-- The transactions of a case, one of every hash. -/
structure Found (Index : Type) where
  allTransactions : List (Transaction Index)
  seenTx : List String
  seen_eq : seenTx = allTransactions.map Transaction.txHash
  nodup : seenTx.Nodup

namespace Found

theorem seen_append (found : Found Index) (tx : Transaction Index) :
    found.seenTx ++ [tx.txHash] = (found.allTransactions ++ [tx]).map Transaction.txHash := by
  rw [List.map_append, found.seen_eq]
  rfl

theorem nodup_append (found : Found Index) {hash : String} (hnew : hash ∉ found.seenTx) :
    (found.seenTx ++ [hash]).Nodup := by
  rw [← List.concat_eq_append]
  exact found.nodup.concat hnew

def empty : Found Index where
  allTransactions := []
  seenTx := []
  seen_eq := rfl
  nodup := List.nodup_nil

def add (found : Found Index) (tx : Transaction Index) : Found Index :=
  if hseen : tx.txHash ∈ found.seenTx then found
  else {
    allTransactions := found.allTransactions ++ [tx]
    seenTx := found.seenTx ++ [tx.txHash]
    seen_eq := found.seen_append tx
    nodup := found.nodup_append hseen }

theorem mem_seenTx_add {found : Found Index} {tx : Transaction Index} {hash : String} :
    hash ∈ (found.add tx).seenTx ↔ hash ∈ found.seenTx ∨ hash = tx.txHash := by
  rw [add]
  split
  case isTrue hseen =>
    constructor
    · exact Or.inl
    · rintro (hhash | rfl)
      · exact hhash
      · exact hseen
  case isFalse => rw [List.mem_append, List.mem_singleton]

theorem mem_or_eq_of_mem_add {found : Found Index} {tx kept : Transaction Index}
    (hkept : kept ∈ (found.add tx).allTransactions) :
    kept ∈ found.allTransactions ∨ kept = tx := by
  rw [add] at hkept
  split at hkept
  · exact Or.inl hkept
  · exact (List.mem_append.mp hkept).imp id List.mem_singleton.mp

theorem exists_of_mem_seenTx {found : Found Index} {hash : String} (hhash : hash ∈ found.seenTx) :
    ∃ tx ∈ found.allTransactions, tx.txHash = hash := by
  rw [found.seen_eq] at hhash
  exact List.mem_map.mp hhash

end Found

namespace ScamInvestigator

/-- What the loops of `investigate` change. -/
structure Search (Index : Type) where
  found : Found Index := .empty
  visitedAddresses : List String := []
  addressNodes : List AddressNode
  nextFrontier : List String := []

/-- The case; clusters, links and scores are derived from it. -/
structure Case (Index : Type) where
  visitedAddresses : List String
  addressNodes : List AddressNode
  transactions : List (Transaction Index)
  flows : List FlowEdge

variable (runtime : Runtime) (collector : String → ℤ → List (Transaction Index))

/-- The other addresses of a transaction. -/
def related (tx : Transaction Index) (address : String) : List String :=
  [runtime.lower tx.fromAddress, runtime.lower tx.toAddress].filter fun other =>
    other ≠ "" ∧ other ≠ address

def discover (depth : ℤ) (currentDepth : ℕ) (address txHash : String) (search : Search Index)
    (relatedAddress : String) : Search Index :=
  if depth ≤ currentDepth then search
  else
    { search with
      addressNodes :=
        if relatedAddress ∈ search.addressNodes.map AddressNode.address then search.addressNodes
        else search.addressNodes ++
          [⟨relatedAddress, currentDepth + 1, some address, some txHash⟩]
      nextFrontier :=
        if relatedAddress ∈ search.visitedAddresses then search.nextFrontier
        else addTo search.nextFrontier relatedAddress }

def takeTransaction (depth : ℤ) (currentDepth : ℕ) (address : String) (search : Search Index)
    (tx : Transaction Index) : Search Index :=
  if tx.txHash = "" then search
  else if !tx.success then { search with found := search.found.add tx }
  else
    (related runtime tx address).foldl (discover depth currentDepth address tx.txHash)
      { search with found := search.found.add tx }

def visitAddress (depth limit : ℤ) (currentDepth : ℕ) (search : Search Index)
    (listed : String) : Search Index :=
  let address := runtime.lower listed
  if address ∈ search.visitedAddresses then search
  else
    (collector address limit).foldl (takeTransaction runtime depth currentDepth address)
      { search with visitedAddresses := search.visitedAddresses ++ [address] }

def searchRound (depth limit : ℤ) (currentDepth : ℕ) (frontier : List String)
    (search : Search Index) : Search Index :=
  (runtime.arrange currentDepth frontier).foldl
    (visitAddress runtime collector depth limit currentDepth) { search with nextFrontier := [] }

/-- The rounds that are left, from a depth on. -/
def searchRounds (depth limit : ℤ) : ℕ → ℕ → List String → Search Index → Search Index
  | 0, _, _, search => search
  | rounds + 1, currentDepth, frontier, search =>
      if frontier = [] then search
      else
        let after := searchRound runtime collector depth limit currentDepth frontier search
        searchRounds depth limit rounds (currentDepth + 1) after.nextFrontier after

def Search.start (seed : String) : Search Index where
  addressNodes := [⟨seed, 0, none, none⟩]

def search (seed : String) (depth limit : ℤ) : Search Index :=
  searchRounds runtime collector depth limit (depth + 1).toNat 0 [seed] (Search.start seed)

def investigate (listedSeed : String) (depth limit : ℤ) : Case Index :=
  let seed := runtime.lower listedSeed
  let final := search runtime collector seed depth limit
  { visitedAddresses := final.visitedAddresses
    addressNodes := final.addressNodes
    transactions := final.found.allTransactions
    flows := TransactionTracer.buildFlows runtime final.found.allTransactions seed (depth + 1) }

/-! ## What a visit adds -/

variable {runtime collector}

/-- The next address is discovered by the transaction. -/
def Discovers (runtime : Runtime) (address next : String) (tx : Transaction Index) : Prop :=
  tx.txHash ≠ "" ∧ tx.success = true ∧ next ∈ related runtime tx address

/-- The next address is discovered at the address. -/
def leads (runtime : Runtime) (collector : String → ℤ → List (Transaction Index)) (limit : ℤ)
    (address next : String) : Prop :=
  ∃ tx ∈ collector address limit, Discovers runtime address next tx

variable {depth limit : ℤ} {currentDepth : ℕ} {address seed : String}

theorem discover_spec (depth : ℤ) (currentDepth : ℕ) (address txHash : String)
    (others : List String) (before : Search Index) :
    let after := others.foldl (discover depth currentDepth address txHash) before
    after.found = before.found ∧ after.visitedAddresses = before.visitedAddresses ∧
      ∀ next, next ∈ after.nextFrontier ↔ next ∈ before.nextFrontier ∨
        ((currentDepth : ℤ) < depth ∧ next ∈ others ∧ next ∉ before.visitedAddresses) := by
  induction others generalizing before with
  | nil => simp
  | cons other rest ih =>
      obtain ⟨hfound, hvisited, hnext⟩ :=
        ih (discover depth currentDepth address txHash before other)
      rw [List.foldl_cons]
      by_cases hdeep : depth ≤ currentDepth
      · have hsame : discover depth currentDepth address txHash before other = before := by
          rw [discover, if_pos hdeep]
        rw [hsame] at hfound hvisited hnext ⊢
        refine ⟨hfound, hvisited, fun next => (hnext next).trans ?_⟩
        simp [not_lt.mpr hdeep]
      · have hkept : (discover depth currentDepth address txHash before other).visitedAddresses =
            before.visitedAddresses := by rw [discover, if_neg hdeep]
        refine ⟨hfound.trans (by rw [discover, if_neg hdeep]), hvisited.trans hkept, ?_⟩
        intro next
        rw [hnext next, hkept, discover, if_neg hdeep]
        by_cases hother : other ∈ before.visitedAddresses
        · simp only [if_pos hother, List.mem_cons]
          grind
        · simp only [if_neg hother, mem_addTo, List.mem_cons]
          grind

/-- What going through some transactions of an address does to a search. -/
structure Takes (runtime : Runtime) (depth : ℤ) (currentDepth : ℕ) (address : String)
    (txs : List (Transaction Index)) (before after : Search Index) : Prop where
  visited : after.visitedAddresses = before.visitedAddresses
  seen : ∀ hash ∈ before.found.seenTx, hash ∈ after.found.seenTx
  taken : ∀ tx ∈ txs, tx.txHash ≠ "" → tx.txHash ∈ after.found.seenTx
  found : ∀ tx ∈ after.found.allTransactions, tx ∈ before.found.allTransactions ∨
    tx ∈ txs ∧ tx.txHash ≠ ""
  next : ∀ next, next ∈ after.nextFrontier ↔ next ∈ before.nextFrontier ∨
    (currentDepth : ℤ) < depth ∧ next ∉ before.visitedAddresses ∧
      ∃ tx ∈ txs, Discovers runtime address next tx

theorem Takes.refl (before : Search Index) :
    Takes runtime depth currentDepth address [] before before where
  visited := rfl
  seen _ hhash := hhash
  taken _ htx := absurd htx List.not_mem_nil
  found _ htx := Or.inl htx
  next := by simp

theorem Takes.trans {first rest : List (Transaction Index)} {before between after : Search Index}
    (hfirst : Takes runtime depth currentDepth address first before between)
    (hrest : Takes runtime depth currentDepth address rest between after) :
    Takes runtime depth currentDepth address (first ++ rest) before after where
  visited := hrest.visited.trans hfirst.visited
  seen hash hhash := hrest.seen hash (hfirst.seen hash hhash)
  taken tx htx hhash := by
    rcases List.mem_append.mp htx with htx | htx
    · exact hrest.seen _ (hfirst.taken tx htx hhash)
    · exact hrest.taken tx htx hhash
  found tx htx := by
    rcases hrest.found tx htx with hbetween | ⟨htx, hhash⟩
    · exact (hfirst.found tx hbetween).imp id fun h => ⟨List.mem_append_left _ h.1, h.2⟩
    · exact Or.inr ⟨List.mem_append_right _ htx, hhash⟩
  next next := by
    have hsplit : (∃ tx ∈ first ++ rest, Discovers runtime address next tx) ↔
        (∃ tx ∈ first, Discovers runtime address next tx) ∨
          ∃ tx ∈ rest, Discovers runtime address next tx := by
      simp only [List.mem_append, or_and_right, exists_or]
    rw [hrest.next, hfirst.next, hfirst.visited, hsplit, and_or_left, and_or_left, or_assoc]

theorem takes_takeTransaction (depth : ℤ) (currentDepth : ℕ) (address : String)
    (before : Search Index) (tx : Transaction Index) :
    Takes runtime depth currentDepth address [tx] before
      (takeTransaction runtime depth currentDepth address before tx) := by
  have hadded : ∀ after : Search Index, after.visitedAddresses = before.visitedAddresses →
      after.found = before.found.add tx → tx.txHash ≠ "" →
      (∀ next, next ∈ after.nextFrontier ↔ next ∈ before.nextFrontier ∨
        (currentDepth : ℤ) < depth ∧ next ∉ before.visitedAddresses ∧
          Discovers runtime address next tx) →
      Takes runtime depth currentDepth address [tx] before after := by
    intro after hvisited hfound hhash hnext
    refine ⟨hvisited, fun hash hmem => ?_, fun other hother _ => ?_, fun other hother => ?_, ?_⟩
    · rw [hfound]
      exact Found.mem_seenTx_add.mpr (Or.inl hmem)
    · rw [hfound, List.mem_singleton.mp hother]
      exact Found.mem_seenTx_add.mpr (Or.inr rfl)
    · rw [hfound] at hother
      refine (Found.mem_or_eq_of_mem_add hother).imp id fun heq => ?_
      exact ⟨heq ▸ List.mem_singleton_self tx, heq ▸ hhash⟩
    · simpa using hnext
  rw [takeTransaction]
  split
  case isTrue hempty =>
    -- a transaction without a hash changes nothing
    refine ⟨rfl, fun _ h => h, fun other hother hhash => ?_, fun _ => Or.inl, ?_⟩
    · rw [List.mem_singleton.mp hother] at hhash
      exact absurd hempty hhash
    · simp [Discovers, hempty]
  case isFalse hhash =>
    split
    case isTrue hfailed =>
      refine hadded _ rfl rfl hhash fun next => ?_
      simp [Discovers, (Bool.not_eq_true' _).mp hfailed]
    case isFalse hdone =>
      obtain ⟨hfound, hvisited, hnext⟩ := discover_spec depth currentDepth address tx.txHash
        (related runtime tx address) { before with found := before.found.add tx }
      refine hadded _ hvisited hfound hhash fun next => (hnext next).trans ?_
      have hsuccess : tx.success = true := by simpa using hdone
      simp only [Discovers, hsuccess, ne_eq, hhash, not_false_eq_true, true_and]
      tauto

theorem takes_foldl (runtime : Runtime) (depth : ℤ) (currentDepth : ℕ) (address : String)
    (txs : List (Transaction Index)) (before : Search Index) :
    Takes runtime depth currentDepth address txs before
      (txs.foldl (takeTransaction runtime depth currentDepth address) before) := by
  induction txs generalizing before with
  | nil => exact Takes.refl before
  | cons tx rest ih =>
      exact (takes_takeTransaction depth currentDepth address before tx).trans (ih _)

/-! ## The search -/

/-- What a search found is what it collected at the visited addresses, which lie
within the depth behind the seed. -/
structure Searched (runtime : Runtime) (collector : String → ℤ → List (Transaction Index))
    (seed : String) (depth limit : ℤ) (search : Search Index) : Prop where
  reached : ∀ address ∈ search.visitedAddresses, ∃ steps : ℕ, (steps : ℤ) ≤ depth ∧
    Steps (leads runtime collector limit) steps seed address
  seen : ∀ address ∈ search.visitedAddresses, ∀ tx ∈ collector address limit, tx.txHash ≠ "" →
    tx.txHash ∈ search.found.seenTx
  found : ∀ tx ∈ search.found.allTransactions, tx.txHash ≠ "" ∧
    ∃ address ∈ search.visitedAddresses, tx ∈ collector address limit

/-- A search within a round, with the addresses that the round has yet to visit. -/
structure Searching (runtime : Runtime) (collector : String → ℤ → List (Transaction Index))
    (seed : String) (depth limit : ℤ) (currentDepth : ℕ) (rest : List String)
    (search : Search Index) : Prop
    extends Searched runtime collector seed depth limit search where
  pending : ∀ address ∈ rest, Steps (leads runtime collector limit) currentDepth seed address
  next : ∀ address ∈ search.nextFrontier,
    Steps (leads runtime collector limit) (currentDepth + 1) seed address
  closes : (currentDepth : ℤ) < depth → Closed (leads runtime collector limit)
    (· ∈ search.visitedAddresses) (fun address => address ∈ search.nextFrontier ∨ address ∈ rest)

theorem lower_of_leads {next : String} (hleads : leads runtime collector limit address next) :
    runtime.lower next = next := by
  obtain ⟨tx, -, -, -, hnext⟩ := hleads
  rw [related, List.mem_filter] at hnext
  have hlisted := hnext.1
  simp only [List.mem_cons, List.not_mem_nil, or_false] at hlisted
  rcases hlisted with rfl | rfl
  · exact runtime.lower_lower _
  · exact runtime.lower_lower _

theorem lower_of_steps {steps : ℕ} (hseed : runtime.lower seed = seed)
    (hsteps : Steps (leads runtime collector limit) steps seed address) :
    runtime.lower address = address := by
  induction steps generalizing seed with
  | zero => exact hsteps ▸ hseed
  | succ steps ih =>
      obtain ⟨next, hleads, hrest⟩ := hsteps
      exact ih (lower_of_leads hleads) hrest

/-- A visit takes the address from those that are left. -/
theorem searching_visitAddress {rest : List String} {before : Search Index}
    (hseed : runtime.lower seed = seed) (hdepth : (currentDepth : ℤ) ≤ depth)
    (hbefore : Searching runtime collector seed depth limit currentDepth (address :: rest)
      before) :
    let after := visitAddress runtime collector depth limit currentDepth before address
    Searching runtime collector seed depth limit currentDepth rest after ∧
      address ∈ after.visitedAddresses ∧
      ∀ other ∈ before.visitedAddresses, other ∈ after.visitedAddresses := by
  have hreached := hbefore.pending address List.mem_cons_self
  have hpending : ∀ other ∈ rest, Steps (leads runtime collector limit) currentDepth seed other :=
    fun other hother => hbefore.pending other (List.mem_cons_of_mem _ hother)
  simp only [visitAddress, lower_of_steps hseed hreached]
  split
  case isTrue hvisited =>
    refine ⟨⟨hbefore.toSearched, hpending, hbefore.next, fun hless => ?_⟩, hvisited,
      fun _ hother => hother⟩
    intro node next hnode hleads
    rcases hbefore.closes hless node next hnode hleads with hsearched | hnext | hrest
    · exact Or.inl hsearched
    · exact Or.inr (Or.inl hnext)
    · rcases List.mem_cons.mp hrest with rfl | hrest
      · exact Or.inl hvisited
      · exact Or.inr (Or.inr hrest)
  case isFalse =>
    have htakes := takes_foldl runtime depth currentDepth address
      (collector address limit)
      { before with visitedAddresses := before.visitedAddresses ++ [address] }
    generalize (collector address limit).foldl
      (takeTransaction runtime depth currentDepth address)
      { before with visitedAddresses := before.visitedAddresses ++ [address] } = after at htakes
    have hmem : ∀ other, other ∈ after.visitedAddresses ↔
        other ∈ before.visitedAddresses ∨ other = address := by
      intro other
      rw [htakes.visited, List.mem_append, List.mem_singleton]
    refine ⟨⟨⟨?_, ?_, ?_⟩, hpending, ?_, ?_⟩, (hmem address).mpr (Or.inr rfl),
      fun other hother => (hmem other).mpr (Or.inl hother)⟩
    · intro other hother
      rcases (hmem other).mp hother with hother | rfl
      · exact hbefore.reached other hother
      · exact ⟨currentDepth, hdepth, hreached⟩
    · intro other hother tx htx hhash
      rcases (hmem other).mp hother with hother | rfl
      · exact htakes.seen _ (hbefore.seen other hother tx htx hhash)
      · exact htakes.taken tx htx hhash
    · intro tx htx
      rcases htakes.found tx htx with hfound | ⟨htx, hhash⟩
      · obtain ⟨hhash, other, hother, hcollected⟩ := hbefore.found tx hfound
        exact ⟨hhash, other, (hmem other).mpr (Or.inl hother), hcollected⟩
      · exact ⟨hhash, address, (hmem address).mpr (Or.inr rfl), htx⟩
    · intro next hnext
      rcases (htakes.next next).mp hnext with hnext | ⟨-, -, tx, htx, hdiscovers⟩
      · exact hbefore.next next hnext
      · exact hreached.concat ⟨tx, htx, hdiscovers⟩
    · intro hless node next hnode hleads
      rcases (hmem node).mp hnode with hnode | rfl
      · rcases hbefore.closes hless node next hnode hleads with hsearched | hnext | hrest
        · exact Or.inl ((hmem next).mpr (Or.inl hsearched))
        · exact Or.inr (Or.inl ((htakes.next next).mpr (Or.inl hnext)))
        · rcases List.mem_cons.mp hrest with rfl | hrest
          · exact Or.inl ((hmem next).mpr (Or.inr rfl))
          · exact Or.inr (Or.inr hrest)
      · by_cases hvisited : next ∈ before.visitedAddresses ++ [node]
        · exact Or.inl (htakes.visited ▸ hvisited)
        · obtain ⟨tx, htx, hdiscovers⟩ := hleads
          exact Or.inr (Or.inl ((htakes.next next).mpr
            (Or.inr ⟨hless, hvisited, tx, htx, hdiscovers⟩)))

theorem searching_foldl {rest : List String} {before : Search Index}
    (hseed : runtime.lower seed = seed) (hdepth : (currentDepth : ℤ) ≤ depth)
    (hbefore : Searching runtime collector seed depth limit currentDepth rest before) :
    let after := rest.foldl (visitAddress runtime collector depth limit currentDepth) before
    Searching runtime collector seed depth limit currentDepth [] after ∧
      (∀ address ∈ rest, address ∈ after.visitedAddresses) ∧
      ∀ other ∈ before.visitedAddresses, other ∈ after.visitedAddresses := by
  induction rest generalizing before with
  | nil => exact ⟨hbefore, fun _ h => absurd h List.not_mem_nil, fun _ h => h⟩
  | cons address rest ih =>
      obtain ⟨hvisit, htaken, hkeeps⟩ := searching_visitAddress hseed hdepth hbefore
      obtain ⟨hafter, hall, hmore⟩ := ih hvisit
      refine ⟨hafter, fun other hother => ?_, fun other hother => hmore _ (hkeeps _ hother)⟩
      rcases List.mem_cons.mp hother with rfl | hother
      · exact hmore _ htaken
      · exact hall other hother

/-- A round searches its frontier and collects the one of the next round. -/
theorem searching_searchRound {frontier : List String} {before : Search Index}
    (hseed : runtime.lower seed = seed) (hdepth : (currentDepth : ℤ) ≤ depth)
    (hbefore : Searching runtime collector seed depth limit currentDepth frontier
      { before with nextFrontier := [] }) :
    let after := searchRound runtime collector depth limit currentDepth frontier before
    Searching runtime collector seed depth limit (currentDepth + 1) after.nextFrontier
        { after with nextFrontier := [] } ∧
      (∀ address ∈ frontier, address ∈ after.visitedAddresses) ∧
      (∀ other ∈ before.visitedAddresses, other ∈ after.visitedAddresses) ∧
      ((currentDepth : ℤ) < depth → Closed (leads runtime collector limit)
        (· ∈ after.visitedAddresses) (· ∈ after.nextFrontier)) := by
  -- the frontier in the order of this round
  have harranged : Searching runtime collector seed depth limit currentDepth
      (runtime.arrange currentDepth frontier) { before with nextFrontier := [] } := by
    refine ⟨hbefore.toSearched, fun address haddress => ?_, hbefore.next, fun hless => ?_⟩
    · exact hbefore.pending address ((runtime.mem_arrange _ _ _).mp haddress)
    · intro node next hnode hleads
      exact (hbefore.closes hless node next hnode hleads).imp id
        (Or.imp id (runtime.mem_arrange _ _ _).mpr)
  obtain ⟨hafter, htaken, hkeeps⟩ := searching_foldl hseed hdepth harranged
  rw [← searchRound] at hafter htaken hkeeps
  intro after
  have hclosed : (currentDepth : ℤ) < depth → Closed (leads runtime collector limit)
      (· ∈ after.visitedAddresses) (· ∈ after.nextFrontier) := by
    intro hless node next hnode hleads
    exact (hafter.closes hless node next hnode hleads).imp id
      fun h => h.resolve_right List.not_mem_nil
  refine ⟨⟨⟨hafter.reached, hafter.seen, hafter.found⟩, hafter.next,
    fun _ h => absurd h List.not_mem_nil, fun hless node next hnode hleads => ?_⟩,
    fun address haddress => ?_, hkeeps, hclosed⟩
  · exact (hclosed (by omega) node next hnode hleads).imp id Or.inr
  · exact htaken address ((runtime.mem_arrange _ _ _).mpr haddress)

/-- The rounds search what lies within the depth, and find what they collected. -/
theorem searched_searchRounds (hseed : runtime.lower seed = seed) {rounds : ℕ}
    (hrounds : (rounds : ℤ) + currentDepth = depth + 1 ∨ rounds = 0) {frontier : List String}
    {before : Search Index} (hbefore : Searching runtime collector seed depth limit currentDepth
      frontier { before with nextFrontier := [] }) :
    let final := searchRounds runtime collector depth limit rounds currentDepth frontier before
    Rounds (leads runtime collector limit) rounds (· ∈ before.visitedAddresses) (· ∈ frontier)
      (· ∈ final.visitedAddresses) ∧ Searched runtime collector seed depth limit final := by
  induction rounds generalizing currentDepth frontier before with
  | zero => exact ⟨.done _ _, hbefore.reached, hbefore.seen, hbefore.found⟩
  | succ rounds ih =>
      simp only [searchRounds]
      split
      case isTrue hempty =>
        refine ⟨.empty _ fun address haddress => ?_, hbefore.reached, hbefore.seen, hbefore.found⟩
        rw [hempty] at haddress
        cases haddress
      case isFalse =>
        obtain ⟨hnext, htaken, hkeeps, hclosed⟩ :=
          searching_searchRound hseed (by omega) hbefore
        obtain ⟨hrest, hfinal⟩ := ih (by omega) hnext
        exact ⟨.round hkeeps htaken (fun hmore => hclosed (by omega)) hrest, hfinal⟩

/-- An address within the depth behind the seed. -/
def Explored (runtime : Runtime) (collector : String → ℤ → List (Transaction Index))
    (seed : String) (depth limit : ℤ) (address : String) : Prop :=
  ∃ steps : ℕ, (steps : ℤ) ≤ depth ∧
    Steps (leads runtime collector limit) steps (runtime.lower seed) address

theorem searching_start (collector : String → ℤ → List (Transaction Index)) (depth limit : ℤ) :
    Searching runtime collector seed depth limit 0 [seed]
      { Search.start seed with nextFrontier := [] } := by
  refine ⟨⟨?_, ?_, ?_⟩, fun address haddress => (List.mem_singleton.mp haddress).symm, ?_, ?_⟩
  · exact fun _ h => absurd h List.not_mem_nil
  · exact fun _ h => absurd h List.not_mem_nil
  · exact fun _ h => absurd h List.not_mem_nil
  · exact fun _ h => absurd h List.not_mem_nil
  · exact fun _ _ _ h => absurd h List.not_mem_nil

theorem searched_search (collector : String → ℤ → List (Transaction Index)) (depth limit : ℤ)
    (hseed : runtime.lower seed = seed) :
    Rounds (leads runtime collector limit) (depth + 1).toNat (fun _ => False) (· ∈ [seed])
      (· ∈ (search runtime collector seed depth limit).visitedAddresses) ∧
      Searched runtime collector seed depth limit (search runtime collector seed depth limit) := by
  have hrounds : ((depth + 1).toNat : ℤ) + (0 : ℕ) = depth + 1 ∨ (depth + 1).toNat = 0 := by omega
  have hsearched := searched_searchRounds hseed hrounds (searching_start collector depth limit)
  simpa [search, Search.start] using hsearched

/-- An investigation visits the addresses within the depth, in any order of its sets. -/
theorem mem_visitedAddresses_iff :
    address ∈ (investigate runtime collector seed depth limit).visitedAddresses ↔
      Explored runtime collector seed depth limit address := by
  obtain ⟨hrounds, hsearched⟩ := searched_search collector depth limit (runtime.lower_lower seed)
  constructor
  · exact hsearched.reached address
  · rintro ⟨steps, hfew, hsteps⟩
    have hless : steps < (depth + 1).toNat := by omega
    exact hrounds.reaches (fun _ _ h => h.elim) (Or.inr (List.mem_singleton_self _)) hsteps hless

/-! ## Transfers -/

/-- Every transaction with a hash that is collected for a visited address is in the
case under its identity, and in its flows when its sender is reached. -/
def keepsTransfers (runtime : Runtime) (collector : String → ℤ → List (Transaction Index))
    (seed : String) (depth limit : ℤ) : Prop :=
  let result := investigate runtime collector seed depth limit
  ∀ address ∈ result.visitedAddresses, ∀ tx ∈ collector address limit, tx.txHash ≠ "" →
    ∃ kept ∈ result.transactions, kept.identity = tx.identity ∧
      ∀ steps : ℕ, (steps : ℤ) ≤ depth →
        Steps (TransactionTracer.sends runtime result.transactions) steps (runtime.lower seed)
          (runtime.lower kept.fromAddress) →
        TransactionTracer.Flows runtime kept result.flows

/-- The case holds one transaction of every hash. -/
theorem nodup_txHash (runtime : Runtime) (collector : String → ℤ → List (Transaction Index))
    (seed : String) (depth limit : ℤ) :
    ((investigate runtime collector seed depth limit).transactions.map
      Transaction.txHash).Nodup := by
  have hnodup := (search runtime collector (runtime.lower seed) depth limit).found.nodup
  rwa [Found.seen_eq] at hnodup

theorem identity_eq_of_keepsTransfers (hkeeps : keepsTransfers runtime collector seed depth limit)
    {first second : String} (hfirst : Explored runtime collector seed depth limit first)
    (hsecond : Explored runtime collector seed depth limit second) {tx other : Transaction Index}
    (htx : tx ∈ collector first limit) (hother : other ∈ collector second limit)
    (hhash : tx.txHash ≠ "") (hsame : tx.txHash = other.txHash) :
    tx.identity = other.identity := by
  obtain ⟨kept, hkept, hidentity, -⟩ :=
    hkeeps first (mem_visitedAddresses_iff.mpr hfirst) tx htx hhash
  obtain ⟨kept', hkept', hidentity', -⟩ :=
    hkeeps second (mem_visitedAddresses_iff.mpr hsecond) other hother (hsame ▸ hhash)
  have hone : kept.txHash = kept'.txHash :=
    calc kept.txHash = tx.txHash := congrArg Prod.fst hidentity
      _ = other.txHash := hsame
      _ = kept'.txHash := (congrArg Prod.fst hidentity').symm
  have heq : kept = kept' :=
    List.inj_on_of_nodup_map (nodup_txHash runtime collector seed depth limit) hkept hkept' hone
  rw [← hidentity, heq, hidentity']

/-- No transfer is lost when transactions with one hash, collected at addresses
within the depth, have one identity. -/
theorem keepsTransfers_iff (runtime : Runtime)
    (collector : String → ℤ → List (Transaction Index)) (seed : String) (depth limit : ℤ) :
    keepsTransfers runtime collector seed depth limit ↔
      ∀ first second, Explored runtime collector seed depth limit first →
        Explored runtime collector seed depth limit second →
        ∀ tx ∈ collector first limit, ∀ other ∈ collector second limit, tx.txHash ≠ "" →
          tx.txHash = other.txHash → tx.identity = other.identity := by
  constructor
  · intro hkeeps first second hfirst hsecond tx htx other hother hhash hsame
    exact identity_eq_of_keepsTransfers hkeeps hfirst hsecond htx hother hhash hsame
  · intro hagree address haddress tx htx hhash
    obtain ⟨-, hsearched⟩ := searched_search collector depth limit
      (runtime.lower_lower seed)
    obtain ⟨kept, hkept, hsame⟩ :=
      Found.exists_of_mem_seenTx (hsearched.seen address haddress tx htx hhash)
    obtain ⟨hkeptHash, source, hsource, hcollected⟩ := hsearched.found kept hkept
    refine ⟨kept, hkept, ?_, fun steps hfew hreached => ?_⟩
    · exact hagree source address (mem_visitedAddresses_iff.mp hsource)
        (mem_visitedAddresses_iff.mp haddress) kept hcollected tx htx hkeptHash hsame
    · have hagain : Steps (TransactionTracer.sends runtime
          (investigate runtime collector seed depth limit).transactions) steps
          (runtime.lower (runtime.lower seed)) (runtime.lower kept.fromAddress) := by
        rwa [runtime.lower_lower]
      exact TransactionTracer.flows_buildFlows (nodup_txHash runtime collector seed depth limit)
        (by omega) hkept hagain

/-! ## A payment and a token transfer in one transaction -/

/-- The identity for texts in lower case, and sets in the order they were built. -/
def lowerCaseRuntime : Runtime where
  lower text := text
  lower_lower _ := rfl
  arrange _ addresses := addresses
  mem_arrange := mem_inOrder

def payment : Transaction (Option ℕ) where
  txHash := "0xab"
  fromAddress := "0x11"
  toAddress := "0x22"
  value := "5"
  logIndex := none

def tokenTransfer : Transaction (Option ℕ) :=
  { payment with toAddress := "0x33", token := "USDT", logIndex := some 0 }

/-- The stream that the unified collector gives for the seed. -/
def swapCollector (address : String) (_limit : ℤ) : List (Transaction (Option ℕ)) :=
  if address = "0x11" then UnifiedTransactionCollector.collect [payment] [tokenTransfer] else []

theorem explored_seed (hdepth : 0 ≤ depth) :
    Explored lowerCaseRuntime collector "0x11" depth limit "0x11" :=
  ⟨0, hdepth, rfl⟩

/-- The token transfer of the seed's transaction is lost. -/
theorem not_keepsTransfers_swap :
    ¬keepsTransfers lowerCaseRuntime swapCollector "0x11" 0 50 := by
  intro hkeeps
  have hpayment : payment ∈ swapCollector "0x11" 50 := by
    rw [swapCollector, if_pos rfl]
    exact List.mem_mergeSort.mpr (by decide)
  have htransfer : tokenTransfer ∈ swapCollector "0x11" 50 := by
    rw [swapCollector, if_pos rfl]
    exact List.mem_mergeSort.mpr (by decide)
  have hsame := identity_eq_of_keepsTransfers hkeeps (explored_seed le_rfl) (explored_seed le_rfl)
    hpayment htransfer (by decide) rfl
  exact absurd hsame (by decide)

end ScamInvestigator

end AegisForge.ScamIntelligence
