import Mathlib.Data.List.Infix
import AegisForge.Core.Checks
import AegisForge.Core.KeyOrder
import AegisForge.Core.Sha1
import AegisForge.Core.StrictJson
import AegisForge.Core.Url

/-!
# Reproduction contracts

A contract declares a bounded experiment.  Validation takes any decoded value and
answers a contract in normal form: its environment and its outputs are sorted.
-/

namespace AegisForge.Shared.ReproductionContract

open AegisForge.Core

def reproductionContractVersion : String := "aegisforge-reproduction-contract-v1"

def maxContractBytes : ℕ := 2 * 1024 * 1024

def maxTextBytes : ℕ := 4096

def maxCommandArgs : ℕ := 128

def maxOutputs : ℕ := 128

/-! ## Contracts -/

structure Target where
  repository : String
  commitSha : String
  scopeReference : String
  sourcePath : String
  deriving DecidableEq

structure Toolchain where
  runtime : String
  version : String
  imageRef : String
  imageDigest : String
  deriving DecidableEq

structure Limits where
  timeoutSeconds : ℤ
  cpuCores : ℤ
  memoryMb : ℤ
  maxProcesses : ℤ
  maxOutputBytes : ℤ
  deriving DecidableEq

structure Output where
  path : String
  sha256 : String
  deriving DecidableEq

/-- What `validate_reproduction_contract` answers. -/
structure Contract where
  contractId : String
  caseId : String
  hypothesisId : String
  target : Target
  toolchain : Toolchain
  command : List String
  workingDirectory : String
  environment : List (String × String)
  limits : Limits
  expectedExitCode : ℤ
  expectedOutputs : List Output
  deriving DecidableEq

def Target.fields (target : Target) : List (String × Json) :=
  [("repository", .text target.repository), ("commit_sha", .text target.commitSha),
    ("scope_reference", .text target.scopeReference), ("source_path", .text target.sourcePath)]

def Toolchain.fields (toolchain : Toolchain) : List (String × Json) :=
  [("runtime", .text toolchain.runtime), ("version", .text toolchain.version),
    ("image_ref", .text toolchain.imageRef), ("image_digest", .text toolchain.imageDigest)]

def Limits.fields (limits : Limits) : List (String × Json) :=
  [("timeout_seconds", .int limits.timeoutSeconds), ("cpu_cores", .int limits.cpuCores),
    ("memory_mb", .int limits.memoryMb), ("max_processes", .int limits.maxProcesses),
    ("max_output_bytes", .int limits.maxOutputBytes)]

def Output.fields (output : Output) : List (String × Json) :=
  [("path", .text output.path), ("sha256", .text output.sha256)]

def Output.toJson (output : Output) : Json := .object output.fields

/-- The environment as a dictionary. -/
def environmentJson (environment : List (String × String)) : Json :=
  .object (environment.map fun entry => (entry.1, .text entry.2))

def Contract.fields (contract : Contract) : List (String × Json) :=
  [("schema_version", .text reproductionContractVersion),
    ("contract_id", .text contract.contractId),
    ("case_id", .text contract.caseId),
    ("hypothesis_id", .text contract.hypothesisId),
    ("target", .object contract.target.fields),
    ("toolchain", .object contract.toolchain.fields),
    ("command", .array (contract.command.map .text)),
    ("working_directory", .text contract.workingDirectory),
    ("environment", environmentJson contract.environment),
    ("network_access", .text "disabled"),
    ("limits", .object contract.limits.fields),
    ("expected_exit_code", .int contract.expectedExitCode),
    ("expected_outputs", .array (contract.expectedOutputs.map Output.toJson))]

/-- The dictionary that the validator answers. -/
def Contract.toJson (contract : Contract) : Json := .object contract.fields

/-! ## Texts and paths -/

/-- `_validate_string_bytes`, where every text is valid Unicode. -/
def validateStringBytes (maxBytes : ℕ) (value field : String) : Except String PUnit := do
  raiseUnless ((utf8 value.toList).length ≤ maxBytes) (field ++ "_invalid")
  raiseUnless ('\x00' ∉ value.toList) (field ++ "_contains_nul")

/-- `_text`. -/
def checkText (maxBytes : ℕ) (value : Json) (field : String) : Except String String := do
  let text ← orRaise (field ++ "_invalid") value.filledText?
  raiseUnless (strip text = text) (field ++ "_whitespace_invalid")
  validateStringBytes maxBytes text field
  return text

/-- `_exact_text`. -/
def checkExactText (value : Json) (field : String) : Except String String := do
  let text ← orRaise (field ++ "_invalid") value.text?
  validateStringBytes maxTextBytes text field
  return text

/-- A path without a root, a backslash, an empty part, a dot or two, or a drive. -/
local instance lawfulText : LawfulBEq (List Char) := inferInstance

def isRelativePath (path : List Char) : Bool :=
  let parts := path.splitOn '/'
  path.head? ≠ some '/' && '\\' ∉ path &&
    parts.all (fun part => part ∉ [[], ['.'], ['.', '.']]) &&
      parts.head?.all fun part => ':' ∉ part

/-- `_safe_relative_path`. -/
def checkPath (allowRoot : Bool) (value : Json) (field : String) : Except String String := do
  let path ← checkText maxTextBytes value field
  raiseUnless (allowRoot = true ∧ path = "." ∨ isRelativePath path.toList = true)
    (field ++ "_invalid")
  return path

/-- `_bounded_int`. -/
def checkInt (value : Json) (field : String) (minimum maximum : ℤ) : Except String ℤ :=
  orRaise (field ++ "_out_of_bounds")
    (value.int?.filter fun number => minimum ≤ number ∧ number ≤ maximum)

/-- `_object`. -/
def checkObject (value : Json) (field : String) (expected : List String) :
    Except String PUnit := do
  raiseUnless (value.isObject = true) (field ++ "_must_be_object")
  raiseUnless ((∀ key ∈ value.keys, key ∈ expected) ∧ ∀ key ∈ expected, key ∈ value.keys)
    (field ++ "_fields_invalid")

/-! ## Patterns -/

/-- `[0-9a-f]` a number of times. -/
def isHex (count : ℕ) (text : List Char) : Bool :=
  text.length = count && text.all fun digit => digit.isDigit || ('a' ≤ digit && digit ≤ 'f')

def isRepositoryChar (character : Char) : Bool :=
  character.isAlphanum || character ∈ ['_', '.', '-']

/-- `_REPOSITORY_RE`, and no part is a dot or two. -/
def isRepository (text : List Char) : Bool :=
  match text.splitOn '/' with
  | [owner, name] => [owner, name].all fun part =>
      part ≠ [] && part.all isRepositoryChar && part ∉ [['.'], ['.', '.']]
  | _ => false

/-- The scope is an HTTPS URL with a host and without a user. -/
def isScopeReference (text : String) : Bool :=
  (Url.urlparse text).any (fun url =>
    let host := Url.hostInfo url.netloc
    Url.isPort host.2 && url.scheme = ['h', 't', 't', 'p', 's'] && host.1 ≠ [] &&
      '@' ∉ url.netloc) &&
    text.toList.all fun character => 32 ≤ character.toNat

/-- `sha256:[0-9a-f]{64}`. -/
def isImageDigest (text : List Char) : Bool :=
  "sha256:".toList.isPrefixOf text && isHex 64 (text.drop 7)

/-- `[a-z0-9]`. -/
def isLowerAlnum (character : Char) : Bool := character.isLower || character.isDigit

/-- A reference that is pinned to the digest. -/
def isImageRef (digest text : List Char) : Bool :=
  let name := text.takeWhile (· ≠ '@')
  name.head?.any isLowerAlnum &&
    name.all (fun character => isLowerAlnum character || character ∈ ['.', '_', ':', '/', '-']) &&
    isImageDigest (text.drop (name.length + 1)) && ('@' :: digest).isSuffixOf text &&
      text.getLast? ≠ some '/'

/-- `_ENV_NAME_RE`. -/
def isEnvName (name : List Char) : Bool :=
  name.head?.any (fun first => first.isUpper || first = '_') && name.length ≤ 128 &&
    name.all fun character => character.isUpper || character.isDigit || character = '_'

/-- The words of `_SENSITIVE_ENV_RE`, between underscores or ends. -/
def sensitiveWords : List String :=
  ["SECRET", "TOKEN", "PASSWORD", "PRIVATE_KEY", "WALLET_SEED", "SEED", "SEED_PHRASE", "MNEMONIC",
    "CREDENTIAL", "AUTHORIZATION", "ACCESS_KEY"]

/-- `_SENSITIVE_ENV_RE.search`, on names in upper case. -/
def isSensitive (name : List Char) : Bool :=
  sensitiveWords.any fun word =>
    ('_' :: word.toList ++ ['_']) <:+: ('_' :: name ++ ['_'])

/-- Neither a line feed nor a carriage return. -/
def isSingleLine (text : String) : Bool := '\n' ∉ text.toList && '\r' ∉ text.toList

/-! ## Validation -/

def checkTarget (value : Json) : Except String Target := do
  checkObject value "target" ["repository", "commit_sha", "scope_reference", "source_path"]
  let repository ← checkText 256 (value.get "repository") "target_repository"
  raiseUnless (isRepository repository.toList = true) "target_repository_invalid"
  let commitSha ← checkText 40 (value.get "commit_sha") "target_commit_sha"
  raiseUnless (isHex 40 commitSha.toList = true) "target_commit_sha_invalid"
  let scopeReference ← checkText 2048 (value.get "scope_reference") "scope_reference"
  raiseUnless (isScopeReference scopeReference = true) "scope_reference_must_be_https_url"
  let sourcePath ← checkPath false (value.get "source_path") "target_source_path"
  return ⟨repository, commitSha, scopeReference, sourcePath⟩

def checkToolchain (value : Json) : Except String Toolchain := do
  checkObject value "toolchain" ["runtime", "version", "image_ref", "image_digest"]
  let runtime ← checkText 128 (value.get "runtime") "toolchain_runtime"
  let version ← checkText 128 (value.get "version") "toolchain_version"
  let imageDigest ← checkText 71 (value.get "image_digest") "toolchain_image_digest"
  raiseUnless (isImageDigest imageDigest.toList = true) "toolchain_image_digest_invalid"
  let imageRef ← checkText 512 (value.get "image_ref") "toolchain_image_ref"
  raiseUnless (isImageRef imageDigest.toList imageRef.toList = true) "toolchain_image_ref_invalid"
  return ⟨runtime, version, imageRef, imageDigest⟩

/-- The loop over the arguments of the command. -/
def checkArgs (index : ℕ) : List Json → Except String (List String)
  | [] => pure []
  | arg :: rest => do
      let text ← checkExactText arg s!"command_arg_{index}"
      raiseUnless (index = 0 → isBlank text = false) "command_executable_invalid"
      raiseUnless (isSingleLine text = true) s!"command_arg_multiline:{index}"
      let others ← checkArgs (index + 1) rest
      return text :: others

def checkCommand (value : Json) : Except String (List String) := do
  let command ← orRaise "command_must_be_bounded_argv"
    (value.array?.filter fun items => items ≠ [] ∧ items.length ≤ maxCommandArgs)
  checkArgs 0 command

/-- The loop over the environment. -/
def checkEntries : List (String × Json) → Except String (List (String × String))
  | [] => pure []
  | (key, value) :: rest => do
      raiseUnless (isEnvName key.toList = true) "environment_name_invalid"
      raiseUnless (isSensitive key.toList = false) ("environment_secret_name_rejected:" ++ key)
      let text ← checkExactText value ("environment_value_" ++ key)
      raiseUnless (isSingleLine text = true) ("environment_value_multiline:" ++ key)
      let others ← checkEntries rest
      return (key, text) :: others

/-- The fields of a dictionary. -/
def fields? : Json → Option (List (String × Json))
  | .object fields => some fields
  | _ => none

def checkEnvironment (value : Json) : Except String (List (String × String)) := do
  let fields ← orRaise "environment_must_be_bounded_object"
    ((fields? value).filter fun fields => fields.length ≤ 128)
  let entries ← checkEntries fields
  return entries.insertionSort fun left right => left.1 ≤ right.1

def checkLimits (value : Json) : Except String Limits := do
  checkObject value "limits"
    ["timeout_seconds", "cpu_cores", "memory_mb", "max_processes", "max_output_bytes"]
  let timeoutSeconds ← checkInt (value.get "timeout_seconds") "timeout_seconds" 1 3600
  let cpuCores ← checkInt (value.get "cpu_cores") "cpu_cores" 1 8
  let memoryMb ← checkInt (value.get "memory_mb") "memory_mb" 64 16384
  let maxProcesses ← checkInt (value.get "max_processes") "max_processes" 1 256
  let maxOutputBytes ← checkInt (value.get "max_output_bytes") "max_output_bytes" 1
    (64 * 1024 * 1024)
  return ⟨timeoutSeconds, cpuCores, memoryMb, maxProcesses, maxOutputBytes⟩

/-- The loop over the expected outputs. -/
def checkOutputs (seenPaths : List String) : List Json → Except String (List Output)
  | [] => pure []
  | item :: rest => do
      checkObject item "expected_output" ["path", "sha256"]
      let path ← checkPath false (item.get "path") "expected_output_path"
      raiseUnless (path ∉ seenPaths) "expected_output_path_duplicate"
      let digest ← checkText 64 (item.get "sha256") "expected_output_sha256"
      raiseUnless (isHex 64 digest.toList = true) "expected_output_sha256_invalid"
      let others ← checkOutputs (path :: seenPaths) rest
      return ⟨path, digest⟩ :: others

def checkExpectedOutputs (value : Json) : Except String (List Output) := do
  let items ← orRaise "expected_outputs_must_be_bounded_list"
    (value.array?.filter fun items => items ≠ [] ∧ items.length ≤ maxOutputs)
  let outputs ← checkOutputs [] items
  return outputs.insertionSort fun left right => left.path ≤ right.path

def contractFields : List String :=
  ["schema_version", "contract_id", "case_id", "hypothesis_id", "target", "toolchain", "command",
    "working_directory", "environment", "network_access", "limits", "expected_exit_code",
    "expected_outputs"]

/-- `validate_reproduction_contract`, whose errors are all `ReproductionContractError`. -/
def validateReproductionContract (payload : Json) : Except String Contract := do
  checkObject payload "contract" contractFields
  raiseUnless (payload.get "schema_version" = .text reproductionContractVersion)
    "schema_version_unsupported"
  let contractId ← checkText maxTextBytes (payload.get "contract_id") "contract_id"
  let caseId ← checkText maxTextBytes (payload.get "case_id") "case_id"
  let hypothesisId ← checkText maxTextBytes (payload.get "hypothesis_id") "hypothesis_id"
  let target ← checkTarget (payload.get "target")
  let toolchain ← checkToolchain (payload.get "toolchain")
  let command ← checkCommand (payload.get "command")
  let workingDirectory ← checkPath true (payload.get "working_directory") "working_directory"
  let environment ← checkEnvironment (payload.get "environment")
  raiseUnless (payload.get "network_access" = .text "disabled") "network_access_must_be_disabled"
  let limits ← checkLimits (payload.get "limits")
  let expectedExitCode ← checkInt (payload.get "expected_exit_code") "expected_exit_code" 0 255
  let expectedOutputs ← checkExpectedOutputs (payload.get "expected_outputs")
  return ⟨contractId, caseId, hypothesisId, target, toolchain, command, workingDirectory,
    environment, limits, expectedExitCode, expectedOutputs⟩

/-- `canonical_contract_bytes`. -/
def canonicalContractBytes (payload : Json) : Except String Octets := do
  let contract ← validateReproductionContract payload
  return contract.toJson.sortKeys.canonicalBytes

/-- The argument of `load_reproduction_contract`. -/
inductive Raw
  | bytes (raw : Octets)
  | text (raw : String)
  | other

/-- The text of the argument, within the limit. -/
def Raw.read : Raw → Except String (List Char)
  | bytes raw => do
      raiseUnless (raw.length ≤ maxContractBytes) "contract_size_limit_exceeded"
      orRaise "contract_invalid_utf8" (decodeUtf8? raw)
  | text raw => do
      raiseUnless ((utf8 raw.toList).length ≤ maxContractBytes) "contract_size_limit_exceeded"
      return raw.toList
  | other => .error "contract_input_must_be_bytes_or_text"

/-- `load_reproduction_contract`. -/
def loadReproductionContract (raw : Raw) : Except String Contract := do
  let text ← raw.read
  let payload ← orRaise "contract_invalid_json" (Json.readAll text)
  match payload.irregularity? with
  | some issue => .error issue
  | none => validateReproductionContract payload

end AegisForge.Shared.ReproductionContract
