import AegisForge.Core.Grouping
import AegisForge.ScamIntelligence.TransactionTracer

/-!
# Links between addresses

The linker groups the transfers of a case by their addresses and writes links into
a dictionary: one for each pair of a sender and a recipient, one for pairs with
several transfers, and one for addresses with a common funder or destination.
-/

namespace AegisForge.ScamIntelligence.EntityLinker

open AegisForge.Core.Grouping

inductive RelationType
  | directTransfer
  | repeatedCounterparty
  | commonFunder
  | commonDestination
  deriving DecidableEq

def RelationType.text : RelationType → String
  | directTransfer => "DIRECT_TRANSFER"
  | repeatedCounterparty => "REPEATED_COUNTERPARTY"
  | commonFunder => "COMMON_FUNDER"
  | commonDestination => "COMMON_DESTINATION"

/-- A link, with its strength in hundredths. -/
structure EntityLink where
  source : String
  target : String
  relationType : RelationType
  strength : ℕ
  evidenceIds : List String
  txHashes : List String
  reason : String
  deriving DecidableEq

def maxCommonCounterparties : ℕ := 8

def maxCorrelationLinksPerEntity : ℕ := 20

/-! ## Transfers -/

/-- A transaction between two addresses, in lower case. -/
structure Transfer where
  source : String
  target : String
  txHash : String
  deriving DecidableEq

variable {Index : Type} (runtime : Runtime)

def isUsable (tx : Transaction Index) : Bool :=
  tx.txHash ≠ "" && tx.fromAddress ≠ "" && tx.toAddress ≠ ""

/-- The transfer that the loop groups; other transactions are passed over. -/
def transfer? (tx : Transaction Index) : Option Transfer :=
  let source := runtime.lower tx.fromAddress
  let target := runtime.lower tx.toAddress
  if source = "" ∨ target = "" ∨ source = target then none else some ⟨source, target, tx.txHash⟩

def transfers (transactions : List (Transaction Index)) : List Transfer :=
  (transactions.filter isUsable).filterMap (transfer? runtime)

/-- `setdefault(key, []).append(tx.tx_hash)`. -/
def addHash (transfer : Transfer) (hashes : Option (List String)) : List String :=
  hashes.getD [] ++ [transfer.txHash]

def pairTransactions (transfers : List Transfer) : List ((String × String) × List String) :=
  group (fun transfer => (transfer.source, transfer.target)) addHash transfers

/-- The hashes for every address, by the addresses on the other side. -/
def counterparties (hub other : Transfer → String) (transfers : List Transfer) :
    List (String × List (String × List String)) :=
  group hub (fun transfer known => update (other transfer) (addHash transfer) (known.getD []))
    transfers

def outgoing (transfers : List Transfer) : List (String × List (String × List String)) :=
  counterparties Transfer.source Transfer.target transfers

def incoming (transfers : List Transfer) : List (String × List (String × List String)) :=
  counterparties Transfer.target Transfer.source transfers

/-! ## Links -/

def EntityLink.key (link : EntityLink) : String × String × RelationType :=
  (link.source, link.target, link.relationType)

abbrev Links := List ((String × String × RelationType) × EntityLink)

/-- `links[key] = link`. -/
def setLink (links : Links) (link : EntityLink) : Links := update link.key (fun _ => link) links

def evidence (hashes : List String) : List String := hashes.map fun hash => "TX:" ++ hash

def directTransfer (entry : (String × String) × List String) : EntityLink where
  source := entry.1.1
  target := entry.1.2
  relationType := .directTransfer
  strength := 70
  evidenceIds := evidence entry.2
  txHashes := entry.2
  reason := "Observed direct on-chain transfer between the addresses"

def addDirectTransfers (pairs : List ((String × String) × List String)) (links : Links) : Links :=
  pairs.foldl (fun links entry => setLink links (directTransfer entry)) links

def repeatedCounterparty (entry : (String × String) × List String) : EntityLink where
  source := entry.1.1
  target := entry.1.2
  relationType := .repeatedCounterparty
  strength := min 85 (50 + 7 * min entry.2.length 5)
  evidenceIds := evidence entry.2
  txHashes := entry.2
  reason :=
    "Observed " ++ toString entry.2.length ++ " transfers between the same address pair"

def addRepeatedCounterparties (pairs : List ((String × String) × List String)) (links : Links) :
    Links :=
  pairs.foldl (fun links entry =>
    if entry.2.length < 2 then links else setLink links (repeatedCounterparty entry)) links

/-- `itertools.combinations(items, 2)`. -/
def combinations {Item : Type} : List Item → List (Item × Item)
  | [] => []
  | first :: rest => rest.map (fun second => (first, second)) ++ combinations rest

/-- What a link says about addresses with a common counterparty. -/
structure Correlation where
  relationType : RelationType
  strength : ℕ
  reason : String → String

def hashesOf (known : List (String × List String)) (address : String) : List String :=
  (known.lookup address).getD []

def correlate (correlation : Correlation) (hub : String) (known : List (String × List String))
    (pair : String × String) : EntityLink where
  source := pair.1
  target := pair.2
  relationType := correlation.relationType
  strength := correlation.strength
  evidenceIds := evidence (hashesOf known pair.1 ++ hashesOf known pair.2)
  txHashes := hashesOf known pair.1 ++ hashesOf known pair.2
  reason := correlation.reason hub

/-- The pairs that an address with these counterparties links. -/
def linkedPairs (known : List (String × List String)) : List (String × String) :=
  if known.length < 2 then []
  else if maxCommonCounterparties < known.length then []
  else
    let pairs := combinations (known.map Prod.fst)
    if maxCorrelationLinksPerEntity < pairs.length then pairs.take maxCorrelationLinksPerEntity
    else pairs

def addCorrelations (correlation : Correlation)
    (grouped : List (String × List (String × List String))) (links : Links) : Links :=
  grouped.foldl (fun links entry =>
    (linkedPairs entry.2).foldl (fun links pair =>
      setLink links (correlate correlation entry.1 entry.2 pair)) links) links

def commonFunder : Correlation where
  relationType := .commonFunder
  strength := 35
  reason funder := "Both addresses received funds from common source " ++ funder

def addCommonFunders (grouped : List (String × List (String × List String))) (links : Links) :
    Links := addCorrelations commonFunder grouped links

def commonDestination : Correlation where
  relationType := .commonDestination
  strength := 30
  reason destination := "Both addresses sent funds to common destination " ++ destination

def addCommonDestinations (grouped : List (String × List (String × List String)))
    (links : Links) : Links := addCorrelations commonDestination grouped links

/-- The order of the keys `(-strength, relation_type, source, target)`. -/
def sortsBefore (left right : EntityLink) : Bool :=
  right.strength < left.strength || (left.strength = right.strength &&
    (left.relationType.text < right.relationType.text ||
      (left.relationType.text = right.relationType.text &&
        (left.source < right.source ||
          (left.source = right.source && left.target ≤ right.target)))))

def linksOf (transfers : List Transfer) : Links :=
  addCommonDestinations (incoming transfers) (addCommonFunders (outgoing transfers)
    (addRepeatedCounterparties (pairTransactions transfers)
      (addDirectTransfers (pairTransactions transfers) [])))

/-- `link`. -/
def link (transactions : List (Transaction Index)) : List EntityLink :=
  ((linksOf (transfers runtime transactions)).map Prod.snd).mergeSort sortsBefore

/-! ## What the groups hold -/

theorem foldl_addHash (transfers : List Transfer) :
    transfers.foldl (fun hashes transfer => some (addHash transfer hashes)) none =
      if transfers = [] then none else some (transfers.map Transfer.txHash) := by
  have hmap : ∀ hashes : List String,
      transfers.foldl (fun hashes transfer => hashes ++ [transfer.txHash]) hashes =
        hashes ++ transfers.map Transfer.txHash := by
    induction transfers with
    | nil => simp
    | cons transfer rest ih =>
        intro hashes
        rw [List.foldl_cons, ih, List.append_assoc, List.map_cons, List.singleton_append]
  have hstep := foldl_some (fun hashes (transfer : Transfer) => hashes ++ [transfer.txHash]) []
    transfers
  rw [hmap, List.nil_append] at hstep
  exact hstep

/-- The hashes of the transfers from one address to another. -/
def hashesBetween (transfers : List Transfer) (source target : String) : List String :=
  (transfers.filter fun transfer => (transfer.source, transfer.target) = (source, target)).map
    Transfer.txHash

theorem mem_pairTransactions_iff {transfers : List Transfer} {source target : String}
    {hashes : List String} :
    ((source, target), hashes) ∈ pairTransactions transfers ↔
      hashes = hashesBetween transfers source target ∧ hashes ≠ [] := by
  rw [pairTransactions, mem_group_iff, foldl_addHash, hashesBetween]
  split
  case isTrue hempty =>
    rw [hempty]
    simp
  case isFalse hsome =>
    rw [Option.some.injEq, eq_comm]
    constructor
    · rintro rfl
      exact ⟨rfl, fun hempty => hsome (List.map_eq_nil_iff.mp hempty)⟩
    · exact fun h => h.1

/-- The hashes at an address, by the addresses on the other side. -/
def knownOf (hub other : Transfer → String) (transfers : List Transfer) (address : String) :
    List (String × List String) :=
  group other addHash (transfers.filter fun transfer => hub transfer = address)

theorem mem_counterparties_iff {hub other : Transfer → String} {transfers : List Transfer}
    {address : String} {known : List (String × List String)} :
    (address, known) ∈ counterparties hub other transfers ↔
      known = knownOf hub other transfers address ∧ address ∈ transfers.map hub := by
  have hfold := foldl_some (fun known (transfer : Transfer) =>
    update (other transfer) (addHash transfer) known) []
    (transfers.filter fun transfer => hub transfer = address)
  rw [counterparties, mem_group_iff, hfold]
  have hempty : (transfers.filter fun transfer => hub transfer = address) = [] ↔
      address ∉ transfers.map hub := by
    simp [List.filter_eq_nil_iff]
  split
  case isTrue hnone => simp [hempty.mp hnone]
  case isFalse hsome =>
    have hmem : address ∈ transfers.map hub := not_not.mp fun h => hsome (hempty.mpr h)
    rw [Option.some.injEq, eq_comm, knownOf, group, updateAll]
    exact ⟨fun h => ⟨h, hmem⟩, fun h => h.1⟩

/-- The addresses on the other side, in the order in which they come first. -/
def partners (hub other : Transfer → String) (transfers : List Transfer) (address : String) :
    List String :=
  ((transfers.filter fun transfer => hub transfer = address).map other).eraseDups

theorem keys_knownOf (hub other : Transfer → String) (transfers : List Transfer)
    (address : String) :
    (knownOf hub other transfers address).map Prod.fst = partners hub other transfers address :=
  keys_group other addHash _

theorem hashesOf_knownOf (hub other : Transfer → String) (transfers : List Transfer)
    (address partner : String) :
    hashesOf (knownOf hub other transfers address) partner =
      (transfers.filter fun transfer => other transfer = partner ∧ hub transfer = address).map
        Transfer.txHash := by
  rw [hashesOf, knownOf, lookup_group, foldl_addHash, List.filter_filter]
  have hsame : (transfers.filter fun transfer =>
      (decide (other transfer = partner) && decide (hub transfer = address))) =
      transfers.filter fun transfer => other transfer = partner ∧ hub transfer = address := by
    congr 1
    funext transfer
    rw [Bool.decide_and]
  rw [hsame]
  split
  case isTrue hempty => rw [hempty]; rfl
  case isFalse => rfl

/-! ## What is written -/

/-- The links that are written, in their order. -/
def written (transfers : List Transfer) : List EntityLink :=
  (pairTransactions transfers).map directTransfer ++
    ((pairTransactions transfers).filter fun entry => 2 ≤ entry.2.length).map
      repeatedCounterparty ++
    (outgoing transfers).flatMap (fun entry =>
      (linkedPairs entry.2).map (correlate commonFunder entry.1 entry.2)) ++
    (incoming transfers).flatMap (fun entry =>
      (linkedPairs entry.2).map (correlate commonDestination entry.1 entry.2))

theorem addDirectTransfers_eq (pairs : List ((String × String) × List String)) (links : Links) :
    addDirectTransfers pairs links = (pairs.map directTransfer).foldl setLink links := by
  rw [addDirectTransfers, List.foldl_map]

theorem addRepeatedCounterparties_eq (pairs : List ((String × String) × List String))
    (links : Links) :
    addRepeatedCounterparties pairs links =
      ((pairs.filter fun entry => 2 ≤ entry.2.length).map repeatedCounterparty).foldl setLink
        links := by
  rw [addRepeatedCounterparties]
  induction pairs generalizing links with
  | nil => rfl
  | cons entry rest ih =>
      rw [List.foldl_cons, ih]
      by_cases hfew : entry.2.length < 2
      · have hmany : ¬2 ≤ entry.2.length := by omega
        simp only [hfew, List.filter_cons, hmany, decide_false, if_true, Bool.false_eq_true,
          if_false]
      · have hmany : 2 ≤ entry.2.length := by omega
        simp only [hfew, List.filter_cons, hmany, decide_true, if_true, if_false, List.map_cons,
          List.foldl_cons]

theorem addCorrelations_eq (correlation : Correlation)
    (grouped : List (String × List (String × List String))) (links : Links) :
    addCorrelations correlation grouped links =
      (grouped.flatMap fun entry =>
        (linkedPairs entry.2).map (correlate correlation entry.1 entry.2)).foldl setLink links := by
  rw [addCorrelations, List.foldl_flatMap]
  simp only [List.foldl_map]

theorem linksOf_eq (transfers : List Transfer) :
    linksOf transfers = assign EntityLink.key (written transfers) := by
  rw [linksOf, addCommonDestinations, addCommonFunders, addCorrelations_eq, addCorrelations_eq,
    addRepeatedCounterparties_eq, addDirectTransfers_eq, ← List.foldl_append, ← List.foldl_append,
    ← List.foldl_append]
  rw [assign, group, updateAll, written]
  simp only [List.append_assoc]
  rfl

/-- The links that are held when all have been written. -/
def held (transfers : List Transfer) : List EntityLink :=
  assigned EntityLink.key (written transfers)

theorem link_perm_held (transactions : List (Transaction Index)) :
    (link runtime transactions).Perm (held (transfers runtime transactions)) := by
  rw [link, linksOf_eq]
  exact List.mergeSort_perm _ _

theorem mem_written_of_mem_link {transactions : List (Transaction Index)}
    {entityLink : EntityLink} (hlink : entityLink ∈ link runtime transactions) :
    entityLink ∈ written (transfers runtime transactions) :=
  mem_of_mem_assigned ((link_perm_held runtime transactions).mem_iff.mp hlink)

/-- The link of a pair with a common counterparty. -/
def Correlates (correlation : Correlation) (hub other : Transfer → String)
    (transfers : List Transfer) (entityLink : EntityLink) : Prop :=
  ∃ address, ∃ pair ∈ linkedPairs (knownOf hub other transfers address),
    entityLink = correlate correlation address (knownOf hub other transfers address) pair

theorem mem_linkedPairs {known : List (String × List String)} {pair : String × String}
    (hpair : pair ∈ linkedPairs known) :
    2 ≤ known.length ∧ known.length ≤ maxCommonCounterparties ∧
      pair ∈ combinations (known.map Prod.fst) := by
  rw [linkedPairs] at hpair
  split at hpair
  · cases hpair
  · split at hpair
    · cases hpair
    · refine ⟨by omega, by omega, ?_⟩
      dsimp only at hpair
      split at hpair
      · exact List.mem_of_mem_take hpair
      · exact hpair

theorem mem_correlations_iff {correlation : Correlation} {hub other : Transfer → String}
    {transfers : List Transfer} {entityLink : EntityLink} :
    (entityLink ∈ (counterparties hub other transfers).flatMap fun entry =>
      (linkedPairs entry.2).map (correlate correlation entry.1 entry.2)) ↔
      Correlates correlation hub other transfers entityLink := by
  simp only [List.mem_flatMap, List.mem_map, Prod.exists]
  constructor
  · rintro ⟨address, known, hentry, source, target, hpair, rfl⟩
    obtain ⟨rfl, -⟩ := mem_counterparties_iff.mp hentry
    exact ⟨address, (source, target), hpair, rfl⟩
  · rintro ⟨address, ⟨source, target⟩, hpair, rfl⟩
    refine ⟨address, _, mem_counterparties_iff.mpr ⟨rfl, ?_⟩, source, target, hpair, rfl⟩
    -- an address that links a pair has transfers
    have hmany := (mem_linkedPairs hpair).1
    rw [← List.length_map Prod.fst, keys_knownOf, partners] at hmany
    by_contra hnone
    have hempty : (transfers.filter fun transfer => hub transfer = address) = [] := by
      rw [List.filter_eq_nil_iff]
      intro transfer htransfer hhub
      exact hnone (List.mem_map.mpr ⟨transfer, htransfer, by simpa using hhub⟩)
    simp [hempty] at hmany

/-- A link is written for a pair with transfers, for one with several of them, and for
a common funder or destination. -/
theorem mem_written_iff {transfers : List Transfer} {entityLink : EntityLink} :
    entityLink ∈ written transfers ↔
      (∃ source target, hashesBetween transfers source target ≠ [] ∧
        entityLink =
          directTransfer ((source, target), hashesBetween transfers source target)) ∨
      (∃ source target, 2 ≤ (hashesBetween transfers source target).length ∧
        entityLink =
          repeatedCounterparty ((source, target), hashesBetween transfers source target)) ∨
      Correlates commonFunder Transfer.source Transfer.target transfers entityLink ∨
      Correlates commonDestination Transfer.target Transfer.source transfers entityLink := by
  rw [written, List.mem_append, List.mem_append, List.mem_append, or_assoc, or_assoc, outgoing,
    incoming, mem_correlations_iff, mem_correlations_iff]
  refine or_congr ?_ (or_congr ?_ Iff.rfl)
  · simp only [List.mem_map, Prod.exists]
    constructor
    · rintro ⟨source, target, hashes, hentry, rfl⟩
      obtain ⟨rfl, hsome⟩ := mem_pairTransactions_iff.mp hentry
      exact ⟨source, target, hsome, rfl⟩
    · rintro ⟨source, target, hsome, rfl⟩
      exact ⟨source, target, _, mem_pairTransactions_iff.mpr ⟨rfl, hsome⟩, rfl⟩
  · simp only [List.mem_map, List.mem_filter, decide_eq_true_eq, Prod.exists]
    constructor
    · rintro ⟨source, target, hashes, ⟨hentry, hmany⟩, rfl⟩
      obtain ⟨rfl, -⟩ := mem_pairTransactions_iff.mp hentry
      exact ⟨source, target, hmany, rfl⟩
    · rintro ⟨source, target, hmany, rfl⟩
      refine ⟨source, target, _, ⟨mem_pairTransactions_iff.mpr ⟨rfl, fun hempty => ?_⟩, hmany⟩,
        rfl⟩
      rw [hempty] at hmany
      exact absurd hmany (by decide)

theorem mem_transfers_iff {transactions : List (Transaction Index)} {transfer : Transfer} :
    transfer ∈ transfers runtime transactions ↔
      ∃ tx ∈ transactions, isUsable tx = true ∧ transfer? runtime tx = some transfer := by
  simp only [transfers, List.mem_filterMap, List.mem_filter, and_assoc]

variable {runtime}

theorem txHash_of_transfer? {tx : Transaction Index} {transfer : Transfer}
    (htransfer : transfer? runtime tx = some transfer) : tx.txHash = transfer.txHash := by
  rw [transfer?] at htransfer
  split at htransfer
  · cases htransfer
  · obtain rfl := Option.some.inj htransfer
    rfl

theorem mem_hashesBetween {transfers : List Transfer} {source target hash : String} :
    hash ∈ hashesBetween transfers source target ↔ ⟨source, target, hash⟩ ∈ transfers := by
  simp only [hashesBetween, List.mem_map, List.mem_filter, decide_eq_true_eq, Prod.mk.injEq]
  constructor
  · rintro ⟨transfer, ⟨hmem, rfl, rfl⟩, rfl⟩
    exact hmem
  · exact fun hmem => ⟨_, ⟨hmem, rfl, rfl⟩, rfl⟩

/-- The hashes at a counterparty of an address. -/
theorem mem_hashesOf_knownOf {hub other : Transfer → String} {transfers : List Transfer}
    {address partner hash : String} :
    hash ∈ hashesOf (knownOf hub other transfers address) partner ↔
      ∃ transfer ∈ transfers, hub transfer = address ∧ other transfer = partner ∧
        transfer.txHash = hash := by
  simp only [hashesOf_knownOf, List.mem_map, List.mem_filter, decide_eq_true_eq]
  constructor
  · rintro ⟨transfer, ⟨hmem, hother, hhub⟩, hhash⟩
    exact ⟨transfer, hmem, hhub, hother, hhash⟩
  · rintro ⟨transfer, hmem, hhub, hother, hhash⟩
    exact ⟨transfer, ⟨hmem, hother, hhub⟩, hhash⟩

theorem mem_partners {hub other : Transfer → String} {transfers : List Transfer}
    {address partner : String} :
    partner ∈ partners hub other transfers address ↔
      ∃ transfer ∈ transfers, hub transfer = address ∧ other transfer = partner := by
  simp only [partners, List.mem_eraseDups, List.mem_map, List.mem_filter, decide_eq_true_eq,
    and_assoc]

theorem mem_of_mem_combinations {Item : Type} {items : List Item} {pair : Item × Item}
    (hpair : pair ∈ combinations items) : pair.1 ∈ items ∧ pair.2 ∈ items := by
  induction items with
  | nil => cases hpair
  | cons first rest ih =>
      rw [combinations, List.mem_append, List.mem_map] at hpair
      rcases hpair with ⟨second, hsecond, rfl⟩ | hpair
      · exact ⟨List.mem_cons_self, List.mem_cons_of_mem _ hsecond⟩
      · exact ⟨List.mem_cons_of_mem _ (ih hpair).1, List.mem_cons_of_mem _ (ih hpair).2⟩

theorem Correlates.evidence {correlation : Correlation} {hub other : Transfer → String}
    {transfers : List Transfer} {entityLink : EntityLink}
    (hlink : Correlates correlation hub other transfers entityLink) :
    entityLink.txHashes ≠ [] ∧
      ∀ hash ∈ entityLink.txHashes, ∃ transfer ∈ transfers, transfer.txHash = hash := by
  obtain ⟨address, pair, hpair, rfl⟩ := hlink
  constructor
  · intro hempty
    have hpartner := (mem_of_mem_combinations (mem_linkedPairs hpair).2.2).1
    rw [keys_knownOf, mem_partners] at hpartner
    obtain ⟨transfer, hmem, hhub, hother⟩ := hpartner
    have hhash := mem_hashesOf_knownOf.mpr ⟨transfer, hmem, hhub, hother, rfl⟩
    rw [(List.append_eq_nil_iff.mp hempty).1] at hhash
    cases hhash
  · intro hash hhash
    rcases List.mem_append.mp hhash with hhash | hhash
    · obtain ⟨transfer, hmem, -, -, hsame⟩ := mem_hashesOf_knownOf.mp hhash
      exact ⟨transfer, hmem, hsame⟩
    · obtain ⟨transfer, hmem, -, -, hsame⟩ := mem_hashesOf_knownOf.mp hhash
      exact ⟨transfer, hmem, hsame⟩

/-- Every link has hashes, and they are hashes of transfers. -/
theorem evidence_of_mem_written {transfers : List Transfer} {entityLink : EntityLink}
    (hlink : entityLink ∈ written transfers) :
    entityLink.txHashes ≠ [] ∧
      ∀ hash ∈ entityLink.txHashes, ∃ transfer ∈ transfers, transfer.txHash = hash := by
  rcases mem_written_iff.mp hlink with
    ⟨source, target, hsome, rfl⟩ | ⟨source, target, hmany, rfl⟩ | hlink | hlink
  · exact ⟨hsome, fun hash hhash => ⟨_, mem_hashesBetween.mp hhash, rfl⟩⟩
  · refine ⟨fun hempty => ?_, fun hash hhash => ⟨_, mem_hashesBetween.mp hhash, rfl⟩⟩
    rw [show hashesBetween transfers source target = [] from hempty] at hmany
    exact absurd hmany (by decide)
  · exact hlink.evidence
  · exact hlink.evidence

theorem eq_directTransfer_of_mem_written {transfers : List Transfer} {entityLink : EntityLink}
    (hlink : entityLink ∈ written transfers)
    (hdirect : entityLink.relationType = .directTransfer) :
    entityLink = directTransfer ((entityLink.source, entityLink.target),
      hashesBetween transfers entityLink.source entityLink.target) := by
  rcases mem_written_iff.mp hlink with
    ⟨source, target, -, rfl⟩ | ⟨source, target, -, rfl⟩ | ⟨_, _, _, rfl⟩ | ⟨_, _, _, rfl⟩
  · rfl
  · cases hdirect
  · cases hdirect
  · cases hdirect

theorem eq_repeatedCounterparty_of_mem_written {transfers : List Transfer}
    {entityLink : EntityLink} (hlink : entityLink ∈ written transfers)
    (hrepeated : entityLink.relationType = .repeatedCounterparty) :
    entityLink = repeatedCounterparty ((entityLink.source, entityLink.target),
      hashesBetween transfers entityLink.source entityLink.target) := by
  rcases mem_written_iff.mp hlink with
    ⟨source, target, -, rfl⟩ | ⟨source, target, -, rfl⟩ | ⟨_, _, _, rfl⟩ | ⟨_, _, _, rfl⟩
  · cases hrepeated
  · rfl
  · cases hrepeated
  · cases hrepeated

theorem two_le_of_mem_written {transfers : List Transfer} {entityLink : EntityLink}
    (hlink : entityLink ∈ written transfers)
    (hrepeated : entityLink.relationType = .repeatedCounterparty) :
    2 ≤ (hashesBetween transfers entityLink.source entityLink.target).length := by
  rcases mem_written_iff.mp hlink with
    ⟨source, target, -, rfl⟩ | ⟨source, target, hmany, rfl⟩ | ⟨_, _, _, rfl⟩ | ⟨_, _, _, rfl⟩
  · cases hrepeated
  · exact hmany
  · cases hrepeated
  · cases hrepeated

/-- Every pair with transfers keeps its link of a direct transfer. -/
theorem directTransfer_mem_held {transfers : List Transfer} {source target : String}
    (hsome : hashesBetween transfers source target ≠ []) :
    directTransfer ((source, target), hashesBetween transfers source target) ∈ held transfers := by
  have hwritten := mem_written_iff.mpr (Or.inl ⟨source, target, hsome, rfl⟩)
  refine mem_assigned_of_unique hwritten fun other hother hkey => ?_
  obtain ⟨hsource, htarget, hdirect⟩ : other.source = source ∧ other.target = target ∧
      other.relationType = .directTransfer := by
    simpa [EntityLink.key, directTransfer] using hkey
  rw [eq_directTransfer_of_mem_written hother hdirect, hsource, htarget]

/-- Every pair with several transfers keeps its link of a repeated counterparty. -/
theorem repeatedCounterparty_mem_held {transfers : List Transfer} {source target : String}
    (hmany : 2 ≤ (hashesBetween transfers source target).length) :
    repeatedCounterparty ((source, target), hashesBetween transfers source target) ∈
      held transfers := by
  have hwritten := mem_written_iff.mpr (Or.inr (Or.inl ⟨source, target, hmany, rfl⟩))
  refine mem_assigned_of_unique hwritten fun other hother hkey => ?_
  obtain ⟨hsource, htarget, hrepeated⟩ : other.source = source ∧ other.target = target ∧
      other.relationType = .repeatedCounterparty := by
    simpa [EntityLink.key, repeatedCounterparty] using hkey
  rw [eq_repeatedCounterparty_of_mem_written hother hrepeated, hsource, htarget]

end AegisForge.ScamIntelligence.EntityLinker
