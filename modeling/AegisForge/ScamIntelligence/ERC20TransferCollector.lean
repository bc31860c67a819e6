import AegisForge.Core.Grouping
import AegisForge.ScamIntelligence.TransactionTracer
import AegisForge.ScamIntelligence.TransferVerification

/-!
# The collection of token transfers

The collector asks a node for the transfer logs of an address, in chunks of blocks and
once for each side of a transfer, and sorts the transfers by their block and by the text
of their log index.  It finds every transfer of the range once; their order is that of
the log indices as numbers if texts and numbers agree on the indices of a block.
-/

namespace AegisForge.ScamIntelligence.ERC20TransferCollector

open AegisForge.Core
open AegisForge.Core.Grouping
open AegisForge.ScamIntelligence.TransferVerification (Number hasHexPrefix transferTopic)
open AegisForge.Shared (ExceptionClass Raised)

/-- A log as the node gives it; its hash and its index are there. -/
structure Log where
  transactionHash : String
  logIndex : String
  topics : Option (List String)
  data : Option String
  blockNumber : Option String
  address : Option String
  transactionIndex : Option String
  deriving DecidableEq

structure Metadata where
  tokenContract : String
  logIndex : String
  transactionIndex : Option String
  deriving DecidableEq

namespace Log

/-- The identity of a log. -/
def key (log : Log) : String × String := (log.transactionHash, log.logIndex)

def topicList (log : Log) : List String := log.topics.getD []

/-- `log.get("blockNumber", "0x0")`, read in base sixteen. -/
def block? (log : Log) : Option ℤ := hexadecimal? (log.blockNumber.getD "0x0")

end Log

section Model

variable (lower : String → String)

/-! ## Queries -/

/-- The topic for an address. -/
def padded (address : String) : String :=
  let digits := (lower address).toList.drop 2
  "0x" ++ String.ofList (List.replicate (64 - digits.length) '0' ++ digits)

/-- A filter of topics, where `none` takes any topic. -/
def matchesTopics : List (Option String) → List String → Bool
  | [], _ => true
  | _ :: _, [] => false
  | none :: filter, _ :: topics => matchesTopics filter topics
  | some wanted :: filter, topic :: topics =>
      lower topic = lower wanted && matchesTopics filter topics

/-- The log lies in the blocks and has the topics. -/
def isListed (fromBlock toBlock : ℤ) (filter : List (Option String)) (log : Log) : Bool :=
  log.block?.any (fun block => fromBlock ≤ block && block ≤ toBlock) &&
    matchesTopics lower filter log.topicList

/-- The logs of a chain: their blocks and indices are numbers, and hash and index tell
them apart. -/
structure Chain where
  logs : List Log
  blocks : ∀ log ∈ logs, ∃ block, log.block? = some block
  indices : ∀ log ∈ logs, hasHexPrefix log.logIndex = true ∧
    ∃ index, hexadecimal? log.logIndex = some index
  unique : (logs.map Log.key).Nodup

/-- A node that gives the logs of the chain that a query asks for, in any order. -/
structure Rpc (chain : Chain) where
  getLogs : ℤ → ℤ → List (Option String) → List Log
  getLogs_perm : ∀ fromBlock toBlock filter, (getLogs fromBlock toBlock filter).Perm
    (chain.logs.filter (isListed lower fromBlock toBlock filter))

def senderFilter (address : String) : List (Option String) :=
  [some transferTopic, some (padded lower address)]

def recipientFilter (address : String) : List (Option String) :=
  [some transferTopic, none, some (padded lower address)]

variable {chain : Chain} (rpc : Rpc lower chain)

/-- `_query`. -/
def query (address : String) (fromBlock toBlock : ℤ) : List Log :=
  firsts Log.key [] (rpc.getLogs fromBlock toBlock (senderFilter lower address) ++
    rpc.getLogs fromBlock toBlock (recipientFilter lower address))

/-! ## Transfers -/

/-- `_topic_address`. -/
def topicAddress (topic : String) : String :=
  "0x" ++ lower (String.ofList (topic.toList.drop (topic.toList.length - 40)))

/-- `str(int(raw_value, 16))`, or zero where it raises. -/
def valueText (rawValue : String) : String :=
  ((hexadecimal? rawValue).bind fun value => (Number.whole value).text?).getD "0"

def transaction (log : Log) : Transaction Metadata where
  txHash := log.transactionHash
  fromAddress := topicAddress lower (log.topicList.getD 1 "")
  toAddress := topicAddress lower (log.topicList.getD 2 "")
  value := valueText (log.data.getD "0x0")
  token := lower (log.address.getD "")
  blockNumber := log.block?.getD 0
  timestamp := 0
  success := true
  logIndex := {
    tokenContract := lower (log.address.getD "")
    logIndex := log.logIndex
    transactionIndex := log.transactionIndex }

/-- The transaction of a log in the loop; a block number that is none raises. -/
def transferOf (log : Log) : Except Raised (Option (Transaction Metadata)) :=
  if log.topicList.length < 3 then .ok none
  else if log.block? = none then .error ⟨.valueError, "invalid literal for int() with base 16"⟩
  else .ok (some (transaction lower log))

/-- The loop over the chunks from a block on. -/
def collectFrom (chunkSize : ℤ) (hchunk : 1 ≤ chunkSize) (address : String) (toBlock : ℤ)
    (current : ℤ) : Except Raised (List (Transaction Metadata)) :=
  if current ≤ toBlock then do
    let chunkEnd := min (current + chunkSize - 1) toBlock
    let found ← (query lower rpc address current chunkEnd).mapM (transferOf lower)
    let rest ← collectFrom chunkSize hchunk address toBlock (chunkEnd + 1)
    return found.reduceOption ++ rest
  else return []
termination_by (toBlock + 1 - current).toNat
decreasing_by omega

/-- The order of the keys `(block_number, log_index)`; texts are compared as texts. -/
def sortsBefore (left right : Transaction Metadata) : Bool :=
  left.blockNumber < right.blockNumber || (left.blockNumber = right.blockNumber &&
    left.logIndex.logIndex ≤ right.logIndex.logIndex)

def isAddress (address : String) : Bool :=
  hasHexPrefix address && address.toList.length = 42

/-- `transfers`, for the chunk size that the collector was made with. -/
def transfers (chunkSize : ℤ) (address : String) (fromBlock toBlock : ℤ) :
    Except Raised (List (Transaction Metadata)) :=
  if hasHexPrefix address = false then .error ⟨.valueError, "Address must start with 0x"⟩
  else if address.toList.length ≠ 42 then .error ⟨.valueError, "Invalid EVM address length"⟩
  else if toBlock < fromBlock then .ok []
  else
    (collectFrom lower rpc (max 1 chunkSize) (le_max_left 1 chunkSize) address toBlock
      fromBlock).map fun transfers => transfers.mergeSort sortsBefore

end Model

/-! ## The transfers of an address -/

section Spec

variable (lower : String → String)

/-- The topic is that of the address, in lower case. -/
def isTopicOf (address topic : String) : Bool := lower topic = lower (padded lower address)

/-- The log is of a transfer in the blocks that the address sent or received. -/
def isTransferOf (address : String) (fromBlock toBlock : ℤ) (log : Log) : Bool :=
  log.block?.any (fun block => fromBlock ≤ block && block ≤ toBlock) &&
    3 ≤ log.topicList.length &&
      (lower (log.topicList.getD 0 "") = lower transferTopic &&
        (isTopicOf lower address (log.topicList.getD 1 "") ||
          isTopicOf lower address (log.topicList.getD 2 "")))

variable (chain : Chain)

/-- One transaction for every transfer of the address in the blocks. -/
def expected (address : String) (fromBlock toBlock : ℤ) : List (Transaction Metadata) :=
  (chain.logs.filter (isTransferOf lower address fromBlock toBlock)).map (transaction lower)

end Spec

/-- The first is in an earlier block, or its log index is the lower number. -/
def Precedes (left right : Transaction Metadata) : Prop :=
  left.blockNumber < right.blockNumber ∨ left.blockNumber = right.blockNumber ∧
    ∃ first second, hexadecimal? left.logIndex.logIndex = some first ∧
      hexadecimal? right.logIndex.logIndex = some second ∧ first ≤ second

variable {lower : String → String} {chain : Chain} {rpc : Rpc lower chain}
variable {address : String} {fromBlock toBlock current : ℤ} {chunkSize : ℤ}

/-- The collector returns one transaction for every transfer of the address in the
blocks, by block and then by log index. -/
def CompleteAndOrdered (lower : String → String) {chain : Chain} (rpc : Rpc lower chain)
    (chunkSize : ℤ) (address : String) (fromBlock toBlock : ℤ) : Prop :=
  ∃ txs, transfers lower rpc chunkSize address fromBlock toBlock = .ok txs ∧
    txs.Perm (expected lower chain address fromBlock toBlock) ∧ txs.Pairwise Precedes

/-- The text of one index comes before that of another one of its block only if its
number does not come after it. -/
def TextsAgree (lower : String → String) (chain : Chain) (address : String)
    (fromBlock toBlock : ℤ) : Prop :=
  ∀ log ∈ chain.logs, ∀ other ∈ chain.logs,
    isTransferOf lower address fromBlock toBlock log = true →
    isTransferOf lower address fromBlock toBlock other = true → log.block? = other.block? →
      log.logIndex < other.logIndex →
        ∃ first second, hexadecimal? log.logIndex = some first ∧
          hexadecimal? other.logIndex = some second ∧ first ≤ second

theorem nodup_logs (chain : Chain) : chain.logs.Nodup := chain.unique.of_map

/-- A query gives the logs of either side once. -/
theorem query_perm (rpc : Rpc lower chain) (address : String) (fromBlock toBlock : ℤ) :
    (query lower rpc address fromBlock toBlock).Perm (chain.logs.filter fun log =>
      isListed lower fromBlock toBlock (senderFilter lower address) log ||
        isListed lower fromBlock toBlock (recipientFilter lower address) log) := by
  have hmem : ∀ filter log, log ∈ rpc.getLogs fromBlock toBlock filter ↔
      log ∈ chain.logs ∧ isListed lower fromBlock toBlock filter log = true := by
    intro filter log
    rw [(rpc.getLogs_perm fromBlock toBlock filter).mem_iff, List.mem_filter]
  refine firsts_perm chain.unique (fun log hlog => ?_) ((nodup_logs chain).filter _) fun log => ?_
  · rcases List.mem_append.mp hlog with hlog | hlog
    · exact ((hmem _ _).mp hlog).1
    · exact ((hmem _ _).mp hlog).1
  · rw [List.mem_append, hmem, hmem, List.mem_filter, Bool.or_eq_true, and_or_left]

/-- With enough topics, the two queries list the transfers of the address. -/
theorem isTransferOf_eq (log : Log) :
    (3 ≤ log.topicList.length && (isListed lower fromBlock toBlock (senderFilter lower address) log ||
      isListed lower fromBlock toBlock (recipientFilter lower address) log)) =
      isTransferOf lower address fromBlock toBlock log := by
  rw [isTransferOf, isListed, isListed, senderFilter, recipientFilter]
  rcases log.topicList with _ | ⟨event, _ | ⟨sender, _ | ⟨recipient, more⟩⟩⟩
  · simp
  · simp
  · simp
  · simp only [matchesTopics, isTopicOf, List.length_cons, List.getD_cons_zero,
      List.getD_cons_succ, Bool.and_true]
    cases log.block?.any fun block => decide (fromBlock ≤ block) && decide (block ≤ toBlock) <;>
      cases decide (lower event = lower transferTopic) <;> simp

theorem mapM_transferOf {logs : List Log} (hblocks : ∀ log ∈ logs, log.block? ≠ none) :
    logs.mapM (transferOf lower) = .ok (logs.map fun log =>
      if log.topicList.length < 3 then none else some (transaction lower log)) := by
  induction logs with
  | nil => rfl
  | cons log rest ih =>
      have hfirst : transferOf lower log =
          .ok (if log.topicList.length < 3 then none else some (transaction lower log)) := by
        rw [transferOf, if_neg (hblocks log List.mem_cons_self)]
        split <;> rfl
      rw [List.mapM_cons, hfirst,
        ih fun other hother => hblocks other (List.mem_cons_of_mem _ hother)]
      rfl

theorem reduceOption_map (logs : List Log) :
    (logs.map fun log => if log.topicList.length < 3 then none
      else some (transaction lower log)).reduceOption =
      (logs.filter fun log => 3 ≤ log.topicList.length).map (transaction lower) := by
  change (List.map _ logs).filterMap id = _
  rw [List.filterMap_map]
  induction logs with
  | nil => rfl
  | cons log rest ih =>
      rw [List.filterMap_cons, ih, List.filter_cons]
      by_cases hfew : log.topicList.length < 3
      · have hmany : ¬3 ≤ log.topicList.length := by omega
        simp [hfew, hmany]
      · have hmany : 3 ≤ log.topicList.length := by omega
        simp [hfew, hmany]

/-- What a chunk adds. -/
theorem mapM_query (rpc : Rpc lower chain) (address : String) (fromBlock toBlock : ℤ) :
    ∃ found, (query lower rpc address fromBlock toBlock).mapM (transferOf lower) = .ok found ∧
      found.reduceOption.Perm (expected lower chain address fromBlock toBlock) := by
  have hquery := query_perm rpc address fromBlock toBlock
  have hblocks : ∀ log ∈ query lower rpc address fromBlock toBlock, log.block? ≠ none := by
    intro log hlog
    obtain ⟨block, hblock⟩ := chain.blocks log (List.mem_of_mem_filter (hquery.mem_iff.mp hlog))
    rw [hblock]
    exact Option.some_ne_none block
  refine ⟨_, mapM_transferOf hblocks, ?_⟩
  rw [reduceOption_map, expected]
  refine List.Perm.map _ ((hquery.filter _).trans ?_)
  rw [List.filter_filter]
  simp only [isTransferOf_eq]
  exact List.Perm.refl _

/-- The transfers of a range are those of its first blocks and those of the others. -/
theorem expected_perm_append {middle : ℤ} (hfirst : fromBlock ≤ middle + 1)
    (hlast : middle ≤ toBlock) :
    (expected lower chain address fromBlock toBlock).Perm
      (expected lower chain address fromBlock middle ++
        expected lower chain address (middle + 1) toBlock) := by
  have hsplit := List.filter_append_perm (fun log : Log => log.block?.any fun block =>
    decide (block ≤ middle)) (chain.logs.filter (isTransferOf lower address fromBlock toBlock))
  rw [List.filter_filter, List.filter_filter] at hsplit
  have hbefore : (fun log : Log => (log.block?.any fun block => decide (block ≤ middle)) &&
      isTransferOf lower address fromBlock toBlock log) =
      isTransferOf lower address fromBlock middle := by
    funext log
    simp only [isTransferOf]
    cases log.block? with
    | none => rfl
    | some block =>
        simp only [Option.any_some]
        have hblock : (decide (block ≤ middle) && (decide (fromBlock ≤ block) &&
            decide (block ≤ toBlock))) = (decide (fromBlock ≤ block) &&
              decide (block ≤ middle)) := by
          rw [Bool.eq_iff_iff]
          simp only [Bool.and_eq_true, decide_eq_true_eq]
          omega
        rw [← hblock]
        simp only [Bool.and_assoc]
  have hafter : ∀ log ∈ chain.logs, (!(log.block?.any fun block => decide (block ≤ middle)) &&
      isTransferOf lower address fromBlock toBlock log) =
      isTransferOf lower address (middle + 1) toBlock log := by
    intro log hlog
    obtain ⟨block, hblock⟩ := chain.blocks log hlog
    simp only [isTransferOf, hblock, Option.any_some]
    have hbounds : (!decide (block ≤ middle) && (decide (fromBlock ≤ block) &&
        decide (block ≤ toBlock))) = (decide (middle + 1 ≤ block) && decide (block ≤ toBlock)) := by
      rw [Bool.eq_iff_iff]
      simp only [Bool.and_eq_true, Bool.not_eq_true', decide_eq_false_iff_not, decide_eq_true_eq]
      omega
    rw [← hbounds]
    simp only [Bool.and_assoc]
  rw [hbefore, List.filter_congr hafter] at hsplit
  rw [expected, expected, expected, ← List.map_append]
  exact hsplit.symm.map _

/-- The chunks tile the blocks. -/
theorem collectFrom_spec (rpc : Rpc lower chain) (hchunk : 1 ≤ chunkSize) (address : String)
    (toBlock current : ℤ) :
    ∃ txs, collectFrom lower rpc chunkSize hchunk address toBlock current = .ok txs ∧
      txs.Perm (expected lower chain address current toBlock) := by
  induction hleft : (toBlock + 1 - current).toNat using Nat.strongRecOn generalizing current with
  | ind left ih =>
      rw [collectFrom]
      split
      case isTrue hmore =>
        obtain ⟨found, hfound, hfoundPerm⟩ := mapM_query rpc address current
          (min (current + chunkSize - 1) toBlock)
        obtain ⟨rest, hrest, hrestPerm⟩ := ih
          (toBlock + 1 - (min (current + chunkSize - 1) toBlock + 1)).toNat (by omega)
          (min (current + chunkSize - 1) toBlock + 1) rfl
        refine ⟨found.reduceOption ++ rest, ?_, ?_⟩
        · simp only [hfound, hrest]
          rfl
        · exact (hfoundPerm.append hrestPerm).trans
            (expected_perm_append (by omega) (by omega)).symm
      case isFalse hdone =>
        refine ⟨[], rfl, ?_⟩
        have hnone : chain.logs.filter (isTransferOf lower address current toBlock) = [] := by
          rw [List.filter_eq_nil_iff]
          intro log _ htransfer
          simp only [isTransferOf, Bool.and_eq_true, Option.any_eq_true, decide_eq_true_eq]
            at htransfer
          omega
        rw [expected, hnone]
        exact List.Perm.refl _

/-! ## Their order -/

theorem sortsBefore_iff {left right : Transaction Metadata} :
    sortsBefore left right = true ↔ left.blockNumber < right.blockNumber ∨
      left.blockNumber = right.blockNumber ∧ left.logIndex.logIndex ≤ right.logIndex.logIndex := by
  simp only [sortsBefore, Bool.or_eq_true, Bool.and_eq_true, decide_eq_true_eq]

theorem sortsBefore_trans (first second third : Transaction Metadata)
    (hfirst : sortsBefore first second = true) (hsecond : sortsBefore second third = true) :
    sortsBefore first third = true := by
  rw [sortsBefore_iff] at *
  rcases hfirst with hfirst | ⟨hfirst, htext⟩
  · rcases hsecond with hsecond | ⟨hsecond, -⟩
    · exact Or.inl (by omega)
    · exact Or.inl (by omega)
  · rcases hsecond with hsecond | ⟨hsecond, htext'⟩
    · exact Or.inl (by omega)
    · exact Or.inr ⟨hfirst.trans hsecond, String.le_trans htext htext'⟩

theorem sortsBefore_total (left right : Transaction Metadata) :
    (sortsBefore left right || sortsBefore right left) = true := by
  rw [Bool.or_eq_true, sortsBefore_iff, sortsBefore_iff]
  rcases lt_trichotomy left.blockNumber right.blockNumber with hless | heq | hmore
  · exact Or.inl (Or.inl hless)
  · rcases String.le_total left.logIndex.logIndex right.logIndex.logIndex with hle | hle
    · exact Or.inl (Or.inr ⟨heq, hle⟩)
    · exact Or.inr (Or.inr ⟨heq.symm, hle⟩)
  · exact Or.inr (Or.inl hmore)

/-- For an address, the transfers are found and sorted by the texts of their indices. -/
theorem transfers_spec (rpc : Rpc lower chain) (chunkSize : ℤ) {fromBlock toBlock : ℤ}
    (haddress : isAddress address = true) :
    ∃ txs, transfers lower rpc chunkSize address fromBlock toBlock = .ok txs ∧
      txs.Perm (expected lower chain address fromBlock toBlock) ∧
        txs.Pairwise fun left right => sortsBefore left right = true := by
  obtain ⟨hmarked, hlength⟩ : hasHexPrefix address = true ∧ address.toList.length = 42 := by
    simpa [isAddress] using haddress
  obtain ⟨txs, htxs, hperm⟩ :=
    collectFrom_spec rpc (le_max_left 1 chunkSize) address toBlock fromBlock
  rw [transfers, if_neg (by simp [hmarked]), if_neg (not_not.mpr hlength)]
  split
  case isTrue hempty =>
    rw [collectFrom, if_neg (by omega)] at htxs
    obtain rfl : [] = txs := Except.ok.inj htxs
    exact ⟨[], rfl, hperm, List.Pairwise.nil⟩
  case isFalse =>
    refine ⟨txs.mergeSort sortsBefore, ?_, (List.mergeSort_perm _ _).trans hperm,
      List.pairwise_mergeSort sortsBefore_trans sortsBefore_total txs⟩
    rw [htxs]
    rfl

/-- A text that is no address raises. -/
theorem isAddress_of_transfers_eq_ok {txs : List (Transaction Metadata)}
    (htransfers : transfers lower rpc chunkSize address fromBlock toBlock = .ok txs) :
    isAddress address = true := by
  rw [transfers] at htransfers
  split at htransfers
  case isTrue => cases htransfers
  case isFalse hmarked =>
    split at htransfers
    case isTrue => cases htransfers
    case isFalse hlength =>
      rw [isAddress, Bool.and_eq_true, decide_eq_true_eq]
      exact ⟨Bool.eq_true_of_not_eq_false hmarked, not_not.mp hlength⟩

theorem mem_expected_iff {tx : Transaction Metadata} :
    tx ∈ expected lower chain address fromBlock toBlock ↔ ∃ log ∈ chain.logs,
      isTransferOf lower address fromBlock toBlock log = true ∧ transaction lower log = tx := by
  simp only [expected, List.mem_map, List.mem_filter, and_assoc]

theorem blockNumber_eq_iff (lower : String → String) {log other : Log} (hlog : log ∈ chain.logs)
    (hother : other ∈ chain.logs) :
    (transaction lower log).blockNumber = (transaction lower other).blockNumber ↔
      log.block? = other.block? := by
  obtain ⟨block, hblock⟩ := chain.blocks log hlog
  obtain ⟨second, hsecond⟩ := chain.blocks other hother
  simp [transaction, hblock, hsecond]

/-- A list that is sorted by texts is sorted by numbers if texts and numbers agree. -/
theorem pairwise_precedes {txs : List (Transaction Metadata)}
    (hagree : TextsAgree lower chain address fromBlock toBlock)
    (hperm : txs.Perm (expected lower chain address fromBlock toBlock))
    (hsorted : txs.Pairwise fun left right => sortsBefore left right = true) :
    txs.Pairwise Precedes := by
  refine hsorted.imp_of_mem fun {left right} hleft hright hbefore => ?_
  obtain ⟨log, hlog, htransfer, rfl⟩ := mem_expected_iff.mp (hperm.mem_iff.mp hleft)
  obtain ⟨other, hother, htransfer', rfl⟩ := mem_expected_iff.mp (hperm.mem_iff.mp hright)
  rcases sortsBefore_iff.mp hbefore with hless | ⟨hblock, htext⟩
  · exact Or.inl hless
  · refine Or.inr ⟨hblock, ?_⟩
    by_cases hsame : log.logIndex = other.logIndex
    · obtain ⟨index, hindex⟩ := (chain.indices log hlog).2
      refine ⟨index, index, hindex, ?_, le_rfl⟩
      rw [transaction, ← hsame]
      exact hindex
    · have hless : log.logIndex < other.logIndex :=
        lt_of_le_of_ne htext hsame
      exact hagree log hlog other hother htransfer htransfer'
        ((blockNumber_eq_iff lower hlog hother).mp hblock) hless

/-- Of two elements of a list one comes first. -/
theorem or_of_pairwise {Item : Type} {relation : Item → Item → Prop} {items : List Item}
    {left right : Item} (hpairwise : items.Pairwise relation) (hleft : left ∈ items)
    (hright : right ∈ items) (hne : left ≠ right) : relation left right ∨ relation right left := by
  induction items with
  | nil => cases hleft
  | cons first rest ih =>
      obtain ⟨hfirst, hrest⟩ := List.pairwise_cons.mp hpairwise
      rcases List.mem_cons.mp hleft with rfl | hleftRest
      · exact Or.inl (hfirst right ((List.mem_cons.mp hright).resolve_left (Ne.symm hne)))
      · rcases List.mem_cons.mp hright with rfl | hrightRest
        · exact Or.inr (hfirst left hleftRest)
        · exact ih hrest hleftRest hrightRest

/-- A list that is sorted both ways shows that texts and numbers agree. -/
theorem textsAgree_of_pairwise {txs : List (Transaction Metadata)}
    (hperm : txs.Perm (expected lower chain address fromBlock toBlock))
    (hsorted : txs.Pairwise fun left right => sortsBefore left right = true)
    (hprecedes : txs.Pairwise Precedes) : TextsAgree lower chain address fromBlock toBlock := by
  intro log hlog other hother htransfer htransfer' hblock hless
  have hmem := hperm.mem_iff.mpr (mem_expected_iff.mpr ⟨log, hlog, htransfer, rfl⟩)
  have hmem' := hperm.mem_iff.mpr (mem_expected_iff.mpr ⟨other, hother, htransfer', rfl⟩)
  have hblocks := (blockNumber_eq_iff lower hlog hother).mpr hblock
  have hne : transaction lower log ≠ transaction lower other := fun heq =>
    absurd (congrArg (fun tx => tx.logIndex.logIndex) heq) (ne_of_lt hless)
  -- one of the two comes first in the list, and it cannot be the second one
  rcases or_of_pairwise (hsorted.and hprecedes) hmem hmem' hne with
    ⟨-, hbefore⟩ | ⟨hbefore, -⟩
  · rcases hbefore with hearlier | ⟨-, hnumbers⟩
    · exact absurd hblocks (ne_of_lt hearlier)
    · exact hnumbers
  · rcases sortsBefore_iff.mp hbefore with hearlier | ⟨-, htext⟩
    · exact absurd hblocks.symm (ne_of_lt hearlier)
    · exact absurd hless (not_lt_of_ge htext)

theorem textsAgree_of_completeAndOrdered
    (hcomplete : CompleteAndOrdered lower rpc chunkSize address fromBlock toBlock) :
    isAddress address = true ∧ TextsAgree lower chain address fromBlock toBlock := by
  obtain ⟨txs, htxs, hperm, hprecedes⟩ := hcomplete
  have haddress := isAddress_of_transfers_eq_ok htxs
  obtain ⟨found, hfound, -, hsorted⟩ := transfers_spec rpc chunkSize haddress
  obtain rfl := Except.ok.inj (htxs.symm.trans hfound)
  exact ⟨haddress, textsAgree_of_pairwise hperm hsorted hprecedes⟩

/-- The transfers of an address are complete and ordered, whatever the size of the chunks,
exactly if texts and numbers agree on the log indices of a block. -/
theorem completeAndOrdered_iff (lower : String → String) {chain : Chain} (rpc : Rpc lower chain)
    (chunkSize : ℤ) (address : String) (fromBlock toBlock : ℤ) :
    CompleteAndOrdered lower rpc chunkSize address fromBlock toBlock ↔
      isAddress address = true ∧ TextsAgree lower chain address fromBlock toBlock := by
  constructor
  · exact textsAgree_of_completeAndOrdered
  · rintro ⟨haddress, hagree⟩
    obtain ⟨txs, htxs, hperm, hsorted⟩ := transfers_spec rpc chunkSize haddress
    exact ⟨txs, htxs, hperm, pairwise_precedes hagree hperm hsorted⟩

/-! ## Two transfers of one block -/

namespace Sample

/-- Every text below is in lower case. -/
def lowerCase (text : String) : String := text

def holder : String := "0x00000000000000000000000000000000000000aa"

def sentBy (index : String) : Log where
  transactionHash := "0x01"
  logIndex := index
  topics := some [transferTopic,
    "0x00000000000000000000000000000000000000000000000000000000000000aa",
    "0x00000000000000000000000000000000000000000000000000000000000000bb"]
  data := some "0x1"
  blockNumber := some "0x1"
  address := some "0x00000000000000000000000000000000000000cc"
  transactionIndex := some "0x0"

/-- The transfers of the second and of the sixteenth log of a block. -/
def block : Chain where
  logs := [sentBy "0x2", sentBy "0x10"]
  blocks log hlog := ⟨1, by
    rcases List.mem_pair.mp hlog with rfl | rfl <;> decide⟩
  indices log hlog := by
    rcases List.mem_pair.mp hlog with rfl | rfl
    · exact ⟨by decide, 2, by decide⟩
    · exact ⟨by decide, 16, by decide⟩
  unique := by decide

def node : Rpc lowerCase block where
  getLogs fromBlock toBlock filter :=
    block.logs.filter (isListed lowerCase fromBlock toBlock filter)
  getLogs_perm _ _ _ := List.Perm.refl _

end Sample

open Sample in
/-- The log with index 16 stands before the one with index 2. -/
theorem not_completeAndOrdered_sample :
    ¬CompleteAndOrdered lowerCase node 10000 holder 1 1 := by
  intro hcomplete
  obtain ⟨first, second, hfirst, hsecond, hle⟩ :=
    (textsAgree_of_completeAndOrdered hcomplete).2 (sentBy "0x10") (by decide) (sentBy "0x2")
      (by decide) (by decide +kernel) (by decide +kernel) rfl (by decide)
  obtain rfl : 16 = first := Option.some.inj hfirst
  obtain rfl : 2 = second := Option.some.inj hsecond
  exact absurd hle (by decide)

end AegisForge.ScamIntelligence.ERC20TransferCollector
