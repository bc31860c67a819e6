import AegisForge.Core.Checks
import AegisForge.Core.IntegerText
import AegisForge.Core.JsonEquality
import AegisForge.Core.JsonUpdate
import AegisForge.Shared.Exceptions

/-!
# Verification of token transfers

The investigator asks a node for the receipt of a transaction and looks for a
transfer among its logs.  A log is taken when its token, its recipient, its value
and its index are those of the transaction; its sender is not compared.
-/

namespace AegisForge.ScamIntelligence.TransferVerification

open AegisForge.Core
open AegisForge.Shared (ExceptionClass Raised)

/-- `str`, `str.lower` and the text that an exception is recorded with. -/
structure Renderings where
  str : Json → String
  str_text : ∀ text, str (.text text) = text
  lower : String → String
  describe : Raised → String

/-- A transaction; what the node answers need not have texts for addresses. -/
structure Transaction where
  txHash : String
  fromAddress : Json
  toAddress : Json
  value : Json
  token : Json
  blockNumber : ℤ
  success : Bool
  metadata : List (String × Json)
  deriving DecidableEq

namespace Transaction

/-- `tx.metadata.get(key)`. -/
def datum (tx : Transaction) (key : String) : Json := (Json.object tx.metadata).get key

/-- `tx.metadata[key] = value`. -/
def set (tx : Transaction) (key : String) (value : Json) : Transaction :=
  { tx with metadata := Json.setField key value tx.metadata }

@[simp]
theorem datum_set (tx : Transaction) (key other : String) (value : Json) :
    (tx.set key value).datum other = if other = key then value else tx.datum other := by
  have hobject : (Json.object tx.metadata).isObject = true := rfl
  exact Json.get_set hobject key other value

end Transaction

/-- The node: a call raises, or it answers. -/
structure Rpc where
  getTransaction : String → Except Raised (Option Transaction)
  getReceipt : String → Except Raised Json

/-! ## Numbers -/

/-- An `int`, of which `True` and `False` are two. -/
inductive Number
  | flag (value : Bool)
  | whole (value : ℤ)
  deriving DecidableEq

namespace Number

def value : Number → ℤ
  | flag value => if value then 1 else 0
  | whole value => value

def json : Number → Json
  | flag value => .bool value
  | whole value => .int value

/-- `str(number)`, which raises on more than 4300 digits. -/
def text? : Number → Option String
  | flag value => some (if value then "True" else "False")
  | whole value =>
      if (Nat.toDigits 10 value.natAbs).length ≤ 4300 then
        some (String.ofList (Json.encodeInt value))
      else none

end Number

def literalError : Raised := ⟨.valueError, "invalid literal for int()"⟩

def argumentError : Raised := ⟨.typeError, "int() argument must be a string or a real number"⟩

/-- `int(value)` on what is neither a text nor an integer. -/
def truncate : Json → Except Raised ℤ
  | .float literal =>
      match Magnitude.ofLiteral literal with
      | some (.finite value) => .ok (if value < 0 then -(-value).floor else value.floor)
      | some (.infinite _) => .error ⟨.overflowError, "cannot convert float infinity to integer"⟩
      | none => .error ⟨.valueError, "cannot convert float NaN to integer"⟩
  | _ => .error argumentError

def hasHexPrefix (text : String) : Bool := "0x".toList.isPrefixOf text.toList

def normalizeInt : Json → Except Raised Number
  | .bool value => .ok (.flag value)
  | .int value => .ok (.whole value)
  | .text written =>
      let text := strip written
      if text = "" then .ok (.whole 0)
      else if hasHexPrefix text = true then
        (orRaise literalError (hexadecimal? text)).map .whole
      else (orRaise literalError (decimal? text)).map .whole
  | value => (truncate value).map .whole

/-- `except (TypeError, ValueError)`. -/
def isCaught (raised : Raised) : Bool := raised.cls = .typeError || raised.cls.isValueError

/-- The number, or `none` where the log is passed over. -/
def readNumber (value : Json) : Except Raised (Option Number) :=
  match normalizeInt value with
  | .ok number => .ok (some number)
  | .error raised => if isCaught raised = true then .ok none else .error raised

/-! ## Logs -/

variable (render : Renderings)

def normalizeAddress (value : Json) : String :=
  let text := render.lower (if value.isTruthy then render.str value else "")
  if hasHexPrefix text = true then text else "0x" ++ text

def transferTopic : String :=
  "0xddf252ad1be2c89b69c2b068fc378daa952ba7f163c4a11628f55a4df523b3ef"

/-- `value or []`. -/
def orEmpty (value : Json) : Json := if value.isTruthy then value else .array []

def noGet : Raised := ⟨.attributeError, "object has no attribute 'get'"⟩

def subscriptError : Raised := ⟨.typeError, "object is not subscriptable"⟩

/-- `len(value)`. -/
def size? : Json → Option ℕ
  | .text value => some value.toList.length
  | .array items => some items.length
  | .object fields => some fields.length
  | _ => none

/-- `value[index]`; the keys of a decoded dictionary are texts. -/
def item? : Json → ℕ → Option Json
  | .text value, index => value.toList[index]?.map fun letter => .text (String.ofList [letter])
  | .array items, index => items[index]?
  | _, _ => none

/-- `value[-40:]`. -/
def lastForty? : Json → Option Json
  | .text value => some (.text (String.ofList (value.toList.drop (value.toList.length - 40))))
  | .array items => some (.array (items.drop (items.length - 40)))
  | _ => none

/-- The items that a loop over the value goes through. -/
def iterate? : Json → Option (List Json)
  | .text value => some (value.toList.map fun letter => .text (String.ofList [letter]))
  | .array items => some items
  | .object fields => some (fields.map fun field => .text field.1)
  | _ => none

def topicsOf (log : Json) : Json := orEmpty (log.get "topics")

/-- `log.get("data", "0x0")`. -/
def dataOf (log : Json) : Json := (log.get? "data").getD (.text "0x0")

/-- The address in a topic, not yet normalized. -/
def addressIn (log : Json) (index : ℕ) : Option Json :=
  (item? (topicsOf log) index).bind lastForty?

structure Transfer where
  token : String
  fromAddress : String
  toAddress : String
  value : String
  logIndex : Json

/-- The log has the index that the transaction has, if it has one. -/
def hasIndex (tx : Transaction) (log : Json) : Except Raised Bool :=
  if tx.datum "log_index" = .null then .ok true
  else
    match readNumber (log.get "logIndex") with
    | .error raised => .error raised
    | .ok none => .ok false
    | .ok (some found) =>
        match readNumber (tx.datum "log_index") with
        | .error raised => .error raised
        | .ok none => .ok false
        | .ok (some wanted) => .ok (found.value = wanted.value)

/-- The transfer of the log, where it is the one that is looked for. -/
def examine (tx : Transaction) (expectedValue : Number) (log : Json) :
    Except Raised (Option Transfer) := do
  raiseUnless (log.isObject = true) noGet
  let count ← orRaise ⟨.typeError, "object has no len()"⟩ (size? (topicsOf log))
  if count < 3 then return none
  let first ← orRaise subscriptError (item? (topicsOf log) 0)
  if render.lower (render.str first) ≠ transferTopic then return none
  let indexed ← hasIndex tx log
  if indexed = false then return none
  if normalizeAddress render (log.get "address") ≠ normalizeAddress render tx.token then
    return none
  let sender ← orRaise subscriptError (addressIn log 1)
  let recipient ← orRaise subscriptError (addressIn log 2)
  let read ← readNumber (dataOf log)
  let some value := read | return none
  if normalizeAddress render recipient ≠ normalizeAddress render tx.toAddress then return none
  if value.value ≠ expectedValue.value then return none
  let text ← orRaise ⟨.valueError, "Exceeds the limit for integer string conversion"⟩ value.text?
  let logIndex ← normalizeInt (log.get "logIndex")
  return some {
    token := normalizeAddress render (log.get "address")
    fromAddress := normalizeAddress render sender
    toAddress := normalizeAddress render recipient
    value := text
    logIndex := logIndex.json }

/-- The first transfer that is the one looked for. -/
def scan (tx : Transaction) (expectedValue : Number) : List Json → Except Raised (Option Transfer)
  | [] => .ok none
  | log :: rest =>
      match examine render tx expectedValue log with
      | .error raised => .error raised
      | .ok (some transfer) => .ok (some transfer)
      | .ok none => scan tx expectedValue rest

/-- The logs of a receipt. -/
def logsOf (receipt : Json) : Option (List Json) := iterate? (orEmpty (receipt.get "logs"))

/-- What is reported when no log matched. -/
def unmatched (tx : Transaction) (text : String) : Transfer where
  token := normalizeAddress render tx.token
  fromAddress := ""
  toAddress := normalizeAddress render tx.toAddress
  value := text
  logIndex := tx.datum "log_index"

/-- `_erc20_transfer_matches`: whether a log matched, and what is reported. -/
def erc20TransferMatches (tx : Transaction) (receipt : Json) :
    Except Raised (Bool × Transfer) := do
  let expectedValue ← normalizeInt tx.value
  raiseUnless (receipt.isObject = true) noGet
  let logs ← orRaise ⟨.typeError, "object is not iterable"⟩ (logsOf receipt)
  let found ← scan render tx expectedValue logs
  let some transfer := found | do
    let text ← orRaise ⟨.valueError, "Exceeds the limit for integer string conversion"⟩
      expectedValue.text?
    return (false, unmatched render tx text)
  return (true, transfer)

/-! ## Transactions -/

/-- What is recorded of a transfer. -/
def recordTransfer (tx verified : Transaction) (matched : Bool) (transfer : Transfer) :
    Transaction :=
  [("rpc_verified", .bool matched),
    ("rpc_receipt_verified", .bool matched),
    ("verification_state", .text (if matched then "VERIFIED" else "MISMATCH")),
    ("verified_token", .text transfer.token),
    ("verified_token_from", .text transfer.fromAddress),
    ("verified_token_to", .text transfer.toAddress),
    ("verified_token_value", .text transfer.value),
    ("verified_log_index", transfer.logIndex),
    ("verified_transaction_to", verified.toAddress),
    ("verified_native_value", verified.value)].foldl (fun tx field => tx.set field.1 field.2) tx

/-- What was recorded before an exception stays recorded. -/
abbrev Attempt := Except (Raised × Transaction) Transaction

def verifyTransfer (rpc : Rpc) (tx verified : Transaction) : Attempt :=
  match rpc.getReceipt tx.txHash with
  | .error raised => .error (raised, tx)
  | .ok receipt =>
      if receipt.isTruthy = false then
        .ok (((tx.set "rpc_verified" (.bool false)).set "verification_state"
          (.text "UNVERIFIED")).set "rpc_verification_error" (.text "receipt_not_found"))
      else if receipt.isObject = false then .error (noGet, tx)
      else
        let status := receipt.get "status"
        let tx := (tx.set "rpc_receipt_status" status).set "rpc_success"
          (.bool (if status.isNull then verified.success else status = .text "0x1"))
        match erc20TransferMatches render tx receipt with
        | .error raised => .error (raised, tx)
        | .ok (matched, transfer) => .ok (recordTransfer tx verified matched transfer)

/-- `value.lower()`. -/
def lowered (value : Json) : Except Raised String :=
  (orRaise ⟨.attributeError, "object has no attribute 'lower'"⟩ value.text?).map render.lower

def nativeMatches (verified tx : Transaction) : Except Raised Bool := do
  let verifiedFrom ← lowered render verified.fromAddress
  let txFrom ← lowered render tx.fromAddress
  if verifiedFrom ≠ txFrom then return false
  let verifiedTo ← lowered render verified.toAddress
  let txTo ← lowered render tx.toAddress
  if verifiedTo ≠ txTo then return false
  return verified.value.equal tx.value && verified.success

def verifyNative (tx verified : Transaction) : Attempt :=
  match nativeMatches render verified tx with
  | .error raised => .error (raised, tx)
  | .ok matched =>
      .ok ([("rpc_verified", .bool matched),
        ("verification_state", .text (if matched then "VERIFIED" else "MISMATCH")),
        ("rpc_block_number", .int verified.blockNumber),
        ("rpc_success", .bool verified.success),
        ("verified_from", verified.fromAddress),
        ("verified_to", verified.toAddress),
        ("verified_native_value", verified.value)].foldl
          (fun tx field => tx.set field.1 field.2) tx)

def isTokenTransfer (tx : Transaction) : Bool := tx.datum "type" = .text "ERC20_TRANSFER"

/-- The body of the `try`. -/
def attempt (rpc : Rpc) (tx : Transaction) : Attempt :=
  match rpc.getTransaction tx.txHash with
  | .error raised => .error (raised, tx)
  | .ok none =>
      .ok ((tx.set "rpc_verified" (.bool false)).set "rpc_verification_error"
        (.text "transaction_not_found"))
  | .ok (some verified) =>
      if isTokenTransfer tx = true then verifyTransfer render rpc tx verified
      else verifyNative render tx verified

/-- `_verify_transaction`. -/
def verifyTransaction (rpc : Option Rpc) (tx : Transaction) : Transaction :=
  match rpc with
  | none => tx
  | some rpc =>
      match attempt render rpc tx with
      | .ok answer => answer
      | .error (raised, tx) =>
          ((tx.set "rpc_verified" (.bool false)).set "verification_state" (.text "ERROR")).set
            "rpc_verification_error" (.text (render.describe raised))

/-! ## What a verification keeps -/

namespace Transaction

/-- The transaction without its metadata. -/
def bare (tx : Transaction) : Transaction := { tx with metadata := [] }

@[simp]
theorem bare_set (tx : Transaction) (key : String) (value : Json) :
    (tx.set key value).bare = tx.bare := rfl

theorem bare_foldl_set (fields : List (String × Json)) (tx : Transaction) :
    (fields.foldl (fun tx field => tx.set field.1 field.2) tx).bare = tx.bare := by
  induction fields generalizing tx with
  | nil => rfl
  | cons field rest ih => exact ih (tx.set field.1 field.2)

end Transaction

/-- What an attempt leaves of the transaction, also when it raised. -/
def Attempt.left : Attempt → Transaction
  | .ok answer => answer
  | .error (_, tx) => tx

theorem bare_verifyTransfer (rpc : Rpc) (tx verified : Transaction) :
    (verifyTransfer render rpc tx verified).left.bare = tx.bare := by
  rw [verifyTransfer]
  split
  case h_1 => rfl
  case h_2 receipt _ =>
    split
    · rfl
    · split
      · rfl
      · dsimp only
        split
        case h_1 => rfl
        case h_2 matched transfer _ =>
          exact Transaction.bare_foldl_set _ _

theorem bare_verifyNative (tx verified : Transaction) :
    (verifyNative render tx verified).left.bare = tx.bare := by
  rw [verifyNative]
  split
  case h_1 => rfl
  case h_2 matched _ => exact Transaction.bare_foldl_set _ _

theorem bare_attempt (rpc : Rpc) (tx : Transaction) :
    (attempt render rpc tx).left.bare = tx.bare := by
  rw [attempt]
  split
  case h_1 => rfl
  case h_2 => rfl
  case h_3 verified _ =>
    split
    · exact bare_verifyTransfer render rpc tx verified
    · exact bare_verifyNative render tx verified

/-- A verification changes the metadata of the transaction only. -/
theorem bare_verifyTransaction (rpc : Option Rpc) (tx : Transaction) :
    (verifyTransaction render rpc tx).bare = tx.bare := by
  cases rpc with
  | none => rfl
  | some rpc =>
      have hattempt := bare_attempt render rpc tx
      rw [verifyTransaction]
      cases hanswer : attempt render rpc tx with
      | ok answer => rwa [hanswer] at hattempt
      | error raised => rwa [hanswer] at hattempt

/-! ## The transfers that are taken -/

variable {render} {tx : Transaction} {log receipt : Json} {expectedValue : Number}

/-- The two are the same number. -/
def SameNumber (left right : Json) : Prop :=
  ∃ found wanted, normalizeInt left = .ok found ∧ normalizeInt right = .ok wanted ∧
    found.value = wanted.value

/-- The address in the topic is the address. -/
def NamesParty (render : Renderings) (log : Json) (index : ℕ) (address : Json) : Prop :=
  ∃ party, addressIn log index = some party ∧
    normalizeAddress render party = normalizeAddress render address

/-- A log of a transfer whose token, recipient, value and index are those of the
transaction. -/
structure Agrees (render : Renderings) (tx : Transaction) (log : Json) : Prop where
  topics : ∃ count ≥ 3, size? (topicsOf log) = some count
  event : ∃ first, item? (topicsOf log) 0 = some first ∧
    render.lower (render.str first) = transferTopic
  token : normalizeAddress render (log.get "address") = normalizeAddress render tx.token
  recipient : NamesParty render log 2 tx.toAddress
  value : SameNumber (dataOf log) tx.value
  index : tx.datum "log_index" ≠ .null → SameNumber (log.get "logIndex") (tx.datum "log_index")

/-- A log of the transfer that the transaction is, its sender included. -/
structure IsTransferOf (render : Renderings) (tx : Transaction) (log : Json) : Prop
    extends Agrees render tx log where
  sender : NamesParty render log 1 tx.fromAddress

theorem readNumber_eq_ok_some_iff {value : Json} {number : Number} :
    readNumber value = .ok (some number) ↔ normalizeInt value = .ok number := by
  rw [readNumber]
  split
  case h_1 found hfound => simp [hfound]
  case h_2 raised hraised =>
    rw [hraised]
    split <;> simp

theorem hasIndex_iff {indexed : Bool} (hread : hasIndex tx log = .ok indexed) :
    indexed = true ↔
      (tx.datum "log_index" ≠ .null → SameNumber (log.get "logIndex") (tx.datum "log_index")) := by
  by_cases hindex : tx.datum "log_index" = .null
  · rw [hasIndex, if_pos hindex] at hread
    obtain rfl := Except.ok.inj hread
    exact iff_of_true rfl fun hother => absurd hindex hother
  · have hsame : hasIndex tx log = .ok true ↔
        SameNumber (log.get "logIndex") (tx.datum "log_index") := by
      rw [hasIndex, if_neg hindex]
      constructor
      · intro hread
        split at hread
        case h_1 => cases hread
        case h_2 => cases hread
        case h_3 found hfound =>
          split at hread
          case h_1 => cases hread
          case h_2 => cases hread
          case h_3 wanted hwanted =>
            exact ⟨found, wanted, readNumber_eq_ok_some_iff.mp hfound,
              readNumber_eq_ok_some_iff.mp hwanted, by simpa using hread⟩
      · rintro ⟨found, wanted, hfound, hwanted, hsame⟩
        rw [readNumber_eq_ok_some_iff.mpr hfound, readNumber_eq_ok_some_iff.mpr hwanted]
        simp [hsame]
    rw [hread] at hsame
    simpa [hindex] using hsame

/-- A log that is examined is taken if it agrees with the transaction. -/
theorem isSome_examine_iff (hvalue : normalizeInt tx.value = .ok expectedValue)
    {answer : Option Transfer} (hread : examine render tx expectedValue log = .ok answer) :
    answer.isSome = true ↔ Agrees render tx log := by
  have hskipped : ∀ {result : Except Raised (Option Transfer)}, result = .ok answer →
      result = .ok none → ¬Agrees render tx log → (answer.isSome = true ↔ Agrees render tx log) := by
    intro result hanswer hnone hother
    obtain rfl := Except.ok.inj (hanswer.symm.trans hnone)
    exact iff_of_false (by simp) hother
  obtain ⟨-, hsized⟩ := raiseUnless_bind_eq_ok hread
  obtain ⟨count, hcount, htopics⟩ := orRaise_bind_eq_ok hsized
  split at htopics
  case isTrue hfew =>
    refine hskipped htopics rfl fun hagrees => ?_
    obtain ⟨other, hother, hsize⟩ := hagrees.topics
    obtain rfl := Option.some.inj (hcount.symm.trans hsize)
    exact absurd hfew (not_lt.mpr hother)
  case isFalse hmany =>
  obtain ⟨first, hfirst, hevent⟩ := orRaise_bind_eq_ok htopics
  split at hevent
  case isTrue hother =>
    refine hskipped hevent rfl fun hagrees => ?_
    obtain ⟨topic, htopic, htransfer⟩ := hagrees.event
    obtain rfl := Option.some.inj (hfirst.symm.trans htopic)
    exact absurd htransfer hother
  case isFalse htransfer =>
  obtain ⟨indexed, hindexed, htoken⟩ := bind_eq_ok hevent
  have hindex := hasIndex_iff hindexed
  split at htoken
  case isTrue hother =>
    refine hskipped htoken rfl fun hagrees => ?_
    simpa [hother] using hindex.mpr hagrees.index
  case isFalse hsame =>
  split at htoken
  case isTrue hother => exact hskipped htoken rfl fun hagrees => absurd hagrees.token hother
  case isFalse hlisted =>
  obtain ⟨sender, hsender, hrecipient⟩ := orRaise_bind_eq_ok htoken
  obtain ⟨recipient, hparty, hdata⟩ := orRaise_bind_eq_ok hrecipient
  obtain ⟨read, hvalueRead, hnumber⟩ := bind_eq_ok hdata
  cases read with
  | none =>
      refine hskipped hnumber rfl fun hagrees => ?_
      obtain ⟨found, _, hfound, -⟩ := hagrees.value
      rw [readNumber_eq_ok_some_iff.mpr hfound] at hvalueRead
      cases hvalueRead
  | some value =>
  simp only at hnumber
  split at hnumber
  case isTrue hother =>
    refine hskipped hnumber rfl fun hagrees => ?_
    obtain ⟨party, hfound, hnamed⟩ := hagrees.recipient
    obtain rfl := Option.some.inj (hparty.symm.trans hfound)
    exact absurd hnamed hother
  case isFalse hnamed =>
  split at hnumber
  case isTrue hother =>
    refine hskipped hnumber rfl fun hagrees => ?_
    obtain ⟨found, wanted, hfound, hwanted, hequal⟩ := hagrees.value
    obtain rfl := Option.some.inj
      (Except.ok.inj (hvalueRead.symm.trans (readNumber_eq_ok_some_iff.mpr hfound)))
    obtain rfl := Except.ok.inj (hvalue.symm.trans hwanted)
    exact absurd hequal hother
  case isFalse hequal =>
  obtain ⟨text, -, hlogIndex⟩ := orRaise_bind_eq_ok hnumber
  obtain ⟨logIndex, -, hanswer⟩ := bind_eq_ok hlogIndex
  obtain rfl := Except.ok.inj hanswer
  refine iff_of_true rfl ⟨⟨count, not_lt.mp hmany, hcount⟩, ⟨first, hfirst, by simpa using htransfer⟩,
    by simpa using hlisted, ⟨recipient, hparty, by simpa using hnamed⟩,
    ⟨value, expectedValue, readNumber_eq_ok_some_iff.mp hvalueRead, hvalue, by simpa using hequal⟩,
    hindex.mp (by simpa using hsame)⟩

/-! ## The logs up to the first that is taken -/

/-- The loop does not raise at the log. -/
def Readable (render : Renderings) (tx : Transaction) (log : Json) : Prop :=
  ∃ expectedValue answer, normalizeInt tx.value = .ok expectedValue ∧
    examine render tx expectedValue log = .ok answer

/-- The loop takes a log or reaches one that agrees with the transaction. -/
def Reaches (render : Renderings) (tx : Transaction) (logs : List Json) : Prop :=
  ∃ before log after, logs = before ++ log :: after ∧
    (∀ other ∈ before, Readable render tx other) ∧ Readable render tx log ∧ Agrees render tx log

theorem not_reaches_nil : ¬Reaches render tx [] := by
  rintro ⟨before, log, after, hlogs, -⟩
  simp at hlogs

theorem reaches_cons_iff {rest : List Json} :
    Reaches render tx (log :: rest) ↔
      Readable render tx log ∧ (Agrees render tx log ∨ Reaches render tx rest) := by
  constructor
  · rintro ⟨before, taken, after, hlogs, hbefore, hread, hagrees⟩
    cases before with
    | nil =>
        obtain ⟨rfl, -⟩ := List.cons.inj hlogs
        exact ⟨hread, Or.inl hagrees⟩
    | cons first others =>
        obtain ⟨rfl, hrest⟩ := List.cons.inj hlogs
        rw [List.forall_mem_cons] at hbefore
        exact ⟨hbefore.1, Or.inr ⟨others, taken, after, hrest, hbefore.2, hread, hagrees⟩⟩
  · rintro ⟨hread, hagrees | ⟨before, taken, after, hlogs, hbefore, htaken, hagrees⟩⟩
    · exact ⟨[], log, rest, rfl, by simp, hread, hagrees⟩
    · refine ⟨log :: before, taken, after, by rw [hlogs, List.cons_append], ?_, htaken, hagrees⟩
      exact List.forall_mem_cons.mpr ⟨hread, hbefore⟩

theorem Reaches.exists_agrees {logs : List Json} (hreaches : Reaches render tx logs) :
    ∃ log ∈ logs, Agrees render tx log := by
  obtain ⟨before, log, after, rfl, -, -, hagrees⟩ := hreaches
  exact ⟨log, by simp, hagrees⟩

/-- The loop takes a log when it reaches one that agrees. -/
theorem scan_eq_ok_some_iff (hvalue : normalizeInt tx.value = .ok expectedValue)
    (logs : List Json) :
    (∃ transfer, scan render tx expectedValue logs = .ok (some transfer)) ↔
      Reaches render tx logs := by
  induction logs with
  | nil => exact iff_of_false (by simp [scan]) not_reaches_nil
  | cons log rest ih =>
      rw [reaches_cons_iff, ← ih, scan]
      split
      case h_1 raised hraised =>
        refine iff_of_false (by simp) ?_
        rintro ⟨⟨number, answer, hnumber, hread⟩, -⟩
        obtain rfl := Except.ok.inj (hvalue.symm.trans hnumber)
        rw [hraised] at hread
        cases hread
      case h_2 transfer htaken =>
        have hagrees : Agrees render tx log := (isSome_examine_iff hvalue htaken).mp rfl
        exact iff_of_true ⟨transfer, rfl⟩
          ⟨⟨expectedValue, some transfer, hvalue, htaken⟩, Or.inl hagrees⟩
      case h_3 hskipped =>
        have hother : ¬Agrees render tx log := fun hagrees => by
          simpa using (isSome_examine_iff hvalue hskipped).mpr hagrees
        simp only [hother, false_or, iff_and_self]
        exact fun _ => ⟨expectedValue, none, hvalue, hskipped⟩

/-- `_erc20_transfer_matches` finds a transfer. -/
def Matches (render : Renderings) (tx : Transaction) (receipt : Json) : Prop :=
  receipt.isObject = true ∧ ∃ logs, logsOf receipt = some logs ∧ Reaches render tx logs

/-- A log that is reached shows that the value of the transaction is a number. -/
theorem exists_normalizeInt_of_reaches {logs : List Json} (hreaches : Reaches render tx logs) :
    ∃ expectedValue, normalizeInt tx.value = .ok expectedValue := by
  obtain ⟨log, -, hagrees⟩ := hreaches.exists_agrees
  obtain ⟨-, wanted, -, hwanted, -⟩ := hagrees.value
  exact ⟨wanted, hwanted⟩

theorem matches_iff :
    (∃ transfer, erc20TransferMatches render tx receipt = .ok (true, transfer)) ↔
      Matches render tx receipt := by
  constructor
  · rintro ⟨transfer, hmatched⟩
    obtain ⟨expectedValue, hvalue, hchecked⟩ := bind_eq_ok hmatched
    obtain ⟨hobject, hlisted⟩ := raiseUnless_bind_eq_ok hchecked
    obtain ⟨logs, hlogs, hscanned⟩ := orRaise_bind_eq_ok hlisted
    obtain ⟨found, hfound, hanswer⟩ := bind_eq_ok hscanned
    cases found with
    | none =>
        obtain ⟨text, -, hunmatched⟩ := orRaise_bind_eq_ok hanswer
        cases hunmatched
    | some taken => exact ⟨hobject, logs, hlogs, (scan_eq_ok_some_iff hvalue logs).mp ⟨_, hfound⟩⟩
  · rintro ⟨hobject, logs, hlogs, hreaches⟩
    obtain ⟨expectedValue, hvalue⟩ := exists_normalizeInt_of_reaches hreaches
    obtain ⟨transfer, hfound⟩ := (scan_eq_ok_some_iff hvalue logs).mpr hreaches
    refine ⟨transfer, bind_eq_ok_iff.mpr ⟨expectedValue, hvalue, ?_⟩⟩
    rw [raiseUnless_bind_eq_ok_iff, orRaise_bind_eq_ok_iff]
    exact ⟨hobject, logs, hlogs, bind_eq_ok_iff.mpr ⟨some transfer, hfound, rfl⟩⟩

/-! ## The state that is recorded -/

/-- What `verification_state` is. -/
def state (tx : Transaction) : Json := tx.datum "verification_state"

def verified : Json := .text "VERIFIED"

/-- The call has no node to ask, or the node does not know the transaction. -/
def Unanswered (rpc : Option Rpc) (tx : Transaction) : Prop :=
  ∀ node, rpc = some node → node.getTransaction tx.txHash = .ok none

/-- The receipt that the call reads. -/
def receiptRead (rpc : Option Rpc) (tx : Transaction) : Option Json :=
  match rpc with
  | none => none
  | some node =>
      match node.getTransaction tx.txHash with
      | .ok (some _) => (node.getReceipt tx.txHash).toOption
      | _ => none

theorem state_recordTransfer (tx answered : Transaction) (matched : Bool) (transfer : Transfer) :
    state (recordTransfer tx answered matched transfer) = verified ↔ matched = true := by
  cases matched <;> simp [recordTransfer, state, verified]

theorem hasIndex_set {key : String} (value : Json) (hkey : key ≠ "log_index") :
    hasIndex (tx.set key value) = hasIndex tx := by
  have hsame : (tx.set key value).datum "log_index" = tx.datum "log_index" := by
    rw [Transaction.datum_set, if_neg hkey.symm]
  funext log
  rw [hasIndex, hasIndex, hsame]

theorem scan_set {key : String} (value : Json) (hkey : key ≠ "log_index") (logs : List Json) :
    scan render (tx.set key value) expectedValue logs = scan render tx expectedValue logs := by
  induction logs with
  | nil => rfl
  | cons log rest ih =>
      have hexamined : examine render (tx.set key value) expectedValue log =
          examine render tx expectedValue log := by
        unfold examine
        rw [hasIndex_set value hkey]
        rfl
      rw [scan, scan, hexamined, ih]

/-- What is recorded of the receipt does not change what is looked for. -/
theorem erc20TransferMatches_set {key : String} (value : Json) (hkey : key ≠ "log_index") :
    erc20TransferMatches render (tx.set key value) receipt =
      erc20TransferMatches render tx receipt := by
  have hunmatched : unmatched render (tx.set key value) = unmatched render tx := by
    funext text
    simp only [unmatched, Transaction.datum_set, if_neg hkey.symm]
    rfl
  unfold erc20TransferMatches
  simp only [scan_set value hkey, hunmatched]
  rfl

theorem not_matches_of_isTruthy_eq_false (hempty : receipt.isTruthy = false) :
    ¬Matches render tx receipt := by
  rintro ⟨hobject, logs, hlogs, hreaches⟩
  obtain ⟨fields, rfl⟩ := Json.isObject_eq_true_iff.mp hobject
  obtain rfl : fields = [] := by simpa [Json.isTruthy] using hempty
  obtain rfl : [] = logs := Option.some.inj hlogs
  exact not_reaches_nil hreaches

/-- A transaction becomes verified when one of the logs of its receipt is taken. -/
theorem state_verifyTransfer_iff (node : Rpc) (answered : Transaction) :
    (∃ after, verifyTransfer render node tx answered = .ok after ∧ state after = verified) ↔
      ∃ receipt, node.getReceipt tx.txHash = .ok receipt ∧ Matches render tx receipt := by
  rw [verifyTransfer]
  split
  case h_1 raised hraised => simp [hraised]
  case h_2 receipt hreceipt =>
    simp only [hreceipt, Except.ok.injEq, exists_eq_left']
    split
    case isTrue hempty =>
      refine iff_of_false ?_ (not_matches_of_isTruthy_eq_false hempty)
      simp [state, verified]
    case isFalse =>
    split
    case isTrue hother =>
      refine iff_of_false (by simp) fun hmatches => ?_
      exact absurd hother (by rw [hmatches.1]; decide)
    case isFalse =>
      simp only [erc20TransferMatches_set _ (show "rpc_success" ≠ "log_index" by decide),
        erc20TransferMatches_set _ (show "rpc_receipt_status" ≠ "log_index" by decide)]
      rw [← matches_iff]
      split
      case h_1 raised hraised => simp [hraised]
      case h_2 matched transfer hmatched =>
        rw [hmatched]
        simp only [Except.ok.injEq, exists_eq_left', state_recordTransfer, Prod.mk.injEq]
        constructor
        · exact fun h => ⟨transfer, h, rfl⟩
        · exact fun ⟨_, h, _⟩ => h

/-! ## Verified transfers -/

/-- If the transaction is left verified, the receipt that was read has a log of
exactly the transfer that the transaction is. -/
def Certifies (render : Renderings) (rpc : Option Rpc) (tx : Transaction) : Prop :=
  state (verifyTransaction render rpc tx) = verified →
    ∃ receipt logs, receiptRead rpc tx = some receipt ∧ logsOf receipt = some logs ∧
      ∃ log ∈ logs, IsTransferOf render tx log

/-- A transaction that no node knows was not verified before; and if the loop
reaches a log that agrees with the transaction apart from the sender, one of the
logs that agree names the sender. -/
structure SenderShown (render : Renderings) (rpc : Option Rpc) (tx : Transaction) : Prop where
  unanswered : Unanswered rpc tx → state tx ≠ verified
  answered : ∀ receipt logs, receiptRead rpc tx = some receipt → receipt.isObject = true →
    logsOf receipt = some logs → Reaches render tx logs →
      ∃ log ∈ logs, IsTransferOf render tx log

theorem state_verifyTransaction_iff (htype : isTokenTransfer tx = true) (rpc : Option Rpc) :
    state (verifyTransaction render rpc tx) = verified ↔
      Unanswered rpc tx ∧ state tx = verified ∨
        ∃ receipt, receiptRead rpc tx = some receipt ∧ Matches render tx receipt := by
  cases rpc with
  | none => simp [verifyTransaction, Unanswered, receiptRead]
  | some node =>
      simp only [verifyTransaction, attempt, Unanswered, receiptRead, Option.some.injEq,
        forall_eq']
      cases hanswer : node.getTransaction tx.txHash with
      | error raised => simp [state, verified]
      | ok found =>
          cases found with
          | none => simp [state]
          | some answered =>
              have hread (receipt : Json) : (node.getReceipt tx.txHash).toOption = some receipt ↔
                  node.getReceipt tx.txHash = .ok receipt := by
                cases node.getReceipt tx.txHash <;> simp [Except.toOption]
              have hknown : (Except.ok (some answered) : Except Raised (Option Transaction)) ≠
                  .ok none := by simp
              simp only [htype, if_true, hread, hknown, false_and, false_or]
              rw [← state_verifyTransfer_iff node answered]
              cases verifyTransfer render node tx answered with
              | error raised => simp [state, verified]
              | ok after => simp

theorem receiptRead_of_unanswered {rpc : Option Rpc} (hunanswered : Unanswered rpc tx) :
    receiptRead rpc tx = none := by
  cases rpc with
  | none => rfl
  | some node => rw [receiptRead, hunanswered node rfl]

/-- A verified transfer is the one that its transaction states, provided that the
logs that the loop would take show its sender. -/
theorem certifies_iff (render : Renderings) (rpc : Option Rpc) (tx : Transaction)
    (htype : isTokenTransfer tx = true) :
    Certifies render rpc tx ↔ SenderShown render rpc tx := by
  rw [Certifies, state_verifyTransaction_iff htype]
  constructor
  · intro hcertified
    refine ⟨fun hunanswered hstale => ?_, fun receipt logs hreceipt hobject hlogs hreaches => ?_⟩
    · obtain ⟨receipt, -, hreceipt, -⟩ := hcertified (Or.inl ⟨hunanswered, hstale⟩)
      rw [receiptRead_of_unanswered hunanswered] at hreceipt
      cases hreceipt
    · obtain ⟨other, listed, hother, hlisted, hlog⟩ :=
        hcertified (Or.inr ⟨receipt, hreceipt, hobject, logs, hlogs, hreaches⟩)
      obtain rfl := Option.some.inj (hreceipt.symm.trans hother)
      obtain rfl := Option.some.inj (hlogs.symm.trans hlisted)
      exact hlog
  · rintro hshown (⟨hunanswered, hstale⟩ | ⟨receipt, hreceipt, hobject, logs, hlogs, hreaches⟩)
    · exact absurd hstale (hshown.unanswered hunanswered)
    · exact ⟨receipt, logs, hreceipt, hlogs,
        hshown.answered receipt logs hreceipt hobject hlogs hreaches⟩

/-! ## A transfer that another address sent -/

namespace Sample

/-- Every text below is in lower case. -/
def renderings : Renderings where
  str value := value.text?.getD "None"
  str_text _ := rfl
  lower text := text
  describe raised := raised.message

/-- The transfer of the tests, from a sender to its recipient. -/
def makeTx (sender : String) : Transaction where
  txHash := "0xtest"
  fromAddress := .text sender
  toAddress := .text "0x46bc8d000c6c3b4ed2667e85f04364e25e3b0265"
  value := .text "90841758000000000"
  token := .text "0x9af45623f959c77901426c4b991be6a2499efa9a"
  blockNumber := 0
  success := true
  metadata := [("log_index", .int 1206), ("type", .text "ERC20_TRANSFER")]

def transferLog : Json := .object [
  ("address", .text "0x9af45623f959c77901426c4b991be6a2499efa9a"),
  ("data", .text "0x142bc18fc5cac00"),
  ("logIndex", .text "0x4b6"),
  ("topics", .array [
    .text "0xddf252ad1be2c89b69c2b068fc378daa952ba7f163c4a11628f55a4df523b3ef",
    .text "0x0000000000000000000000009bdbbd6ff7889e1cb668c21c5da3c8a73a7742ae",
    .text "0x00000000000000000000000046bc8d000c6c3b4ed2667e85f04364e25e3b0265"])]

def makeReceipt : Json := .object [("logs", .array [transferLog]), ("status", .text "0x1")]

def node : Rpc where
  getTransaction _ := .ok (some (makeTx "0x9bdbbd6ff7889e1cb668c21c5da3c8a73a7742ae"))
  getReceipt _ := .ok makeReceipt

theorem isTransferOf_transferLog :
    IsTransferOf renderings (makeTx "0x9bdbbd6ff7889e1cb668c21c5da3c8a73a7742ae") transferLog where
  topics := ⟨3, le_refl 3, rfl⟩
  event := ⟨.text transferTopic, rfl, by decide +kernel⟩
  token := rfl
  recipient := ⟨.text "46bc8d000c6c3b4ed2667e85f04364e25e3b0265", by decide +kernel,
    by decide +kernel⟩
  value := ⟨.whole 90841758000000000, .whole 90841758000000000, by decide +kernel,
    by decide +kernel, rfl⟩
  index _ := ⟨.whole 1206, .whole 1206, by decide +kernel, rfl, rfl⟩
  sender := ⟨.text "9bdbbd6ff7889e1cb668c21c5da3c8a73a7742ae", by decide +kernel,
    by decide +kernel⟩

end Sample

open Sample in
theorem certifies_makeTx : Certifies renderings (some node)
    (makeTx "0x9bdbbd6ff7889e1cb668c21c5da3c8a73a7742ae") := by
  refine (certifies_iff renderings (some node) _ rfl).mpr ⟨?_, ?_⟩
  · intro hunanswered
    cases hunanswered node rfl
  · intro read logs hread _ hlogs _
    obtain rfl : makeReceipt = read := Option.some.inj hread
    obtain rfl : [transferLog] = logs := Option.some.inj hlogs
    exact ⟨transferLog, List.mem_singleton_self _, isTransferOf_transferLog⟩

open Sample in
/-- The same log verifies a transaction with another sender. -/
theorem not_certifies_otherSender :
    ¬ ∀ (render : Renderings) (rpc : Option Rpc) (tx : Transaction), isTokenTransfer tx = true →
      Certifies render rpc tx := by
  intro hcertifies
  have hverified : state (verifyTransaction renderings (some node)
      (makeTx "0x1111111111111111111111111111111111111111")) = verified := by decide +kernel
  obtain ⟨read, logs, hread, hlogs, log, hlog, htransfer⟩ :=
    hcertifies renderings (some node) _ rfl hverified
  obtain rfl : makeReceipt = read := Option.some.inj hread
  obtain rfl : [transferLog] = logs := Option.some.inj hlogs
  obtain rfl := List.mem_singleton.mp hlog
  obtain ⟨party, hparty, hnamed⟩ := htransfer.sender
  obtain rfl : Json.text "9bdbbd6ff7889e1cb668c21c5da3c8a73a7742ae" = party :=
    Option.some.inj (hparty.symm.trans (by decide +kernel)).symm
  revert hnamed
  decide +kernel

end AegisForge.ScamIntelligence.TransferVerification
