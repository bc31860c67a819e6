import AegisForge.Core.Text
import AegisForge.Shared.Exceptions

/-!
# Outcome contracts

`validate_outcome_contract`.  A contract is the list of the fields of its JSON
object; a nested object is kept as its canonical text, since the validation
only asks whether a field holds one.
-/

namespace AegisForge.Shared

open AegisForge.Core

/-- A field's value: a string, a Boolean, an object or anything else. -/
inductive ContractValue
  | text (value : String)
  | flag (value : Bool)
  | object (canonical : String)
  | other (canonical : String)
  deriving DecidableEq, Repr

abbrev OutcomeContract := List (String × ContractValue)

namespace OutcomeContract

def outcomeContractError (message : String) : Raised :=
  ⟨.outcomeContractError, message⟩

def field (contract : OutcomeContract) (name : String) : Option ContractValue :=
  contract.lookup name

/-- A row of `CONTRACT_TYPES`. -/
structure ContractType where
  required : List String
  allowed : List String
  verifiers : List String
  actions : List String

def contractRequiredActions : List String :=
  ["delete", "publish", "api_request", "mcp_tool_call", "transfer", "release"]

def contractTypes : List (String × ContractType) := [
  ("state_match", {
    required := ["type", "verifier", "expected_state"]
    allowed := ["type", "verifier", "expected_state"]
    verifiers := ["filesystem_independent_v1"]
    actions := ["delete"] }),
  ("artifact_exists", {
    required := ["type", "verifier", "path", "expected_exists"]
    allowed := ["type", "verifier", "path", "expected_exists"]
    verifiers := ["artifact_independent_v1"]
    actions := ["publish"] }),
  ("http_state", {
    required := ["type", "verifier", "verify_url", "expected_state"]
    allowed := ["type", "verifier", "verify_url", "expected_state"]
    verifiers := ["http_independent_get_v1"]
    actions := ["api_request"] }),
  ("mcp_state", {
    required := ["type", "verifier", "endpoint", "tool", "arguments", "read_only",
      "expected_state"]
    allowed := ["type", "verifier", "endpoint", "tool", "arguments", "read_only",
      "expected_state", "headers", "request_id"]
    verifiers := ["mcp_independent_read_v1"]
    actions := ["mcp_tool_call"] }),
  ("transaction_confirmed", {
    required := ["type", "verifier", "transaction_id"]
    allowed := ["type", "verifier", "transaction_id", "expected_status"]
    verifiers := ["transaction_independent_v1"]
    actions := ["transfer", "release"] })]

/-- `isinstance(value, str) and value.strip()`. -/
def isNonBlank : Option ContractValue → Bool
  | some (.text value) => !isBlank value
  | _ => false

def isObject : Option ContractValue → Bool
  | some (.object _) => true
  | _ => false

def isText : Option ContractValue → Bool
  | some (.text _) => true
  | _ => false

def isFlag : Option ContractValue → Bool
  | some (.flag _) => true
  | _ => false

/-- A field that may be left out, but is of the right kind when it is there. -/
def absentOr (kind : Option ContractValue → Bool) (value : Option ContractValue) : Bool :=
  value.isNone || kind value

/-- The checks of one contract type, in the order of the source. -/
def validateFields (contract : OutcomeContract) (typeName : String) :
    Except Raised Unit :=
  if typeName = "artifact_exists" ∧
      ¬(isNonBlank (contract.field "path") ∧ isFlag (contract.field "expected_exists")) then
    .error (outcomeContractError "outcome_contract_artifact_invalid")
  else if typeName = "http_state" ∧ ¬isNonBlank (contract.field "verify_url") then
    .error (outcomeContractError "outcome_contract_verify_url_required")
  else if typeName = "mcp_state" ∧
      ¬(isNonBlank (contract.field "endpoint") ∧ isNonBlank (contract.field "tool")) then
    .error (outcomeContractError "outcome_contract_mcp_target_required")
  else if typeName = "mcp_state" ∧
      ¬(isObject (contract.field "arguments") ∧
        contract.field "read_only" = some (.flag true)) then
    .error (outcomeContractError "outcome_contract_mcp_arguments_invalid")
  else if typeName = "mcp_state" ∧ ¬absentOr isObject (contract.field "headers") then
    .error (outcomeContractError "outcome_contract_headers_invalid")
  else if typeName = "mcp_state" ∧ ¬absentOr isText (contract.field "request_id") then
    .error (outcomeContractError "outcome_contract_request_id_invalid")
  else if typeName = "transaction_confirmed" ∧
      ¬isNonBlank (contract.field "transaction_id") then
    .error (outcomeContractError "outcome_contract_transaction_id_required")
  else .ok ()

/-- `CONTRACT_TYPES` at `value.get("type")`, which may hold anything. -/
def contractType : Option ContractValue → Option (String × ContractType)
  | some (.text typeName) =>
      (contractTypes.lookup typeName).map fun spec => (typeName, spec)
  | _ => none

end OutcomeContract

open OutcomeContract in
/-- `validate_outcome_contract(contract, action)`, whose answer is the contract. -/
def validateOutcomeContract (contract : OutcomeContract) (action : Option String) :
    Except Raised Unit :=
  if contract = [] then
    match action with
    | some name =>
        if name ∈ contractRequiredActions then
          .error (outcomeContractError "outcome_contract_required")
        else .ok ()
    | none => .ok ()
  else match contractType (contract.field "type") with
    | none => .error (outcomeContractError "unknown_outcome_contract_type")
    | some (typeName, spec) =>
        let names := contract.map Prod.fst
        let missing := sorted (spec.required.filter (· ∉ names))
        let extra := sorted (names.filter (· ∉ spec.allowed))
        if missing ≠ [] then
          .error (outcomeContractError
            ("outcome_contract_fields_missing:" ++ ",".intercalate missing))
        else if extra ≠ [] then
          .error (outcomeContractError
            ("outcome_contract_fields_unknown:" ++ ",".intercalate extra))
        else if ¬isNonBlank (contract.field "verifier") then
          .error (outcomeContractError "outcome_contract_verifier_required")
        else if ¬spec.verifiers.any fun verifier =>
            contract.field "verifier" = some (.text verifier) then
          .error (outcomeContractError "outcome_contract_verifier_mismatch")
        else if (action.any fun name => name ∉ spec.actions) then
          .error (outcomeContractError "outcome_contract_action_mismatch")
        else validateFields contract typeName

end AegisForge.Shared
