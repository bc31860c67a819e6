import Mathlib.Logic.Function.Basic
import AegisForge.Core.HashChain
import AegisForge.Core.Table
import AegisForge.Shared.AttestorRegistry

/-!
# Recovery trust

A store keeps the attestors of recoveries with their status, and for each of
them a history of status changes that is chained by hashes.  Every registry
keeps in memory what it has read from the store and what it has written itself.
-/

namespace AegisForge.Shared.RecoveryTrust

open AegisForge.Core
open AttestorRegistry (Bytes itemsOf isArray)

def trustError (message : String) : Raised := ⟨.recoveryTrustError, message⟩

/-- `if not condition: raise RecoveryTrustError(message)`. -/
def check (condition : Prop) [Decidable condition] (message : String) : Except Raised PUnit :=
  raiseUnless condition (trustError message)

/-- The required fields are there; the error lists those that are missing. -/
def checkFields (payload : Json) (required : List String) (message : String) :
    Except Raised PUnit :=
  match payload.missing required with
  | some absent => .error (trustError (message ++ ":" ++ absent))
  | none => .ok ⟨⟩

/-! ## Statuses -/

inductive RecoveryAttestorStatus
  | active
  | suspended
  | revoked
  deriving DecidableEq, Repr

namespace RecoveryAttestorStatus

def value : RecoveryAttestorStatus → String
  | active => "ACTIVE"
  | suspended => "SUSPENDED"
  | revoked => "REVOKED"

/-- The status that a text names. -/
def ofText (text : String) : Option RecoveryAttestorStatus :=
  [active, suspended, revoked].find? fun status => status.value = text

/-- `_ALLOWED_TRANSITIONS`. -/
def allowed : RecoveryAttestorStatus → List RecoveryAttestorStatus
  | active => [suspended, revoked]
  | suspended => [active, revoked]
  | revoked => []

theorem value_injective : Function.Injective value := by
  intro left right
  cases left <;> cases right <;> decide

theorem ofText_eq_some_iff {text : String} {status : RecoveryAttestorStatus} :
    ofText text = some status ↔ text = status.value := by
  constructor
  · intro hstatus
    have hnamed := List.find?_some hstatus
    exact (of_decide_eq_true hnamed).symm
  · rintro rfl
    cases status <;> decide

end RecoveryAttestorStatus

/-! ## Events -/

/-- What a history event says, as text and null or as an untrusted dictionary
has it. -/
structure EventBody where
  fromStatus : Json
  toStatus : Json
  occurredAt : Json
  reason : Json

structure StatusChange where
  fromStatus : Option RecoveryAttestorStatus
  toStatus : RecoveryAttestorStatus
  occurredAt : String
  reason : String
  deriving DecidableEq, Repr

/-- The primitives that come from outside. -/
structure Primitives where
  /-- `base64.urlsafe_b64decode` of ASCII text. -/
  decodeBase64 : String → Option Bytes
  /-- SHA-256 in hexadecimal. -/
  sha256 : Bytes → String
  /-- `history_event_hash`: SHA-256 of the canonical JSON of the key id, the
  event and the previous hash. -/
  historyEventHash : String → EventBody → String → String

/-- `GENESIS_HASH`. -/
def genesisHash : String := String.ofList (List.replicate 64 '0')

def StatusChange.body (change : StatusChange) : EventBody where
  fromStatus := (change.fromStatus.map fun status => Json.text status.value).getD .null
  toStatus := .text change.toStatus.value
  occurredAt := .text change.occurredAt
  reason := .text change.reason

/-- The changes follow each other from the status `before`, each by an allowed
transition. -/
def Lifecycle : Option RecoveryAttestorStatus → List StatusChange → Prop
  | _, [] => True
  | before, change :: rest =>
      change.fromStatus = before ∧ (∀ status ∈ before, change.toStatus ∈ status.allowed) ∧
        Lifecycle (some change.toStatus) rest

theorem lifecycle_concat {before : Option RecoveryAttestorStatus}
    {changes : List StatusChange} {change : StatusChange} (hlifecycle : Lifecycle before changes)
    (hfrom : change.fromStatus = (changes.getLast?.map StatusChange.toStatus).or before)
    (hallowed : ∀ status ∈ change.fromStatus, change.toStatus ∈ status.allowed) :
    Lifecycle before (changes ++ [change]) := by
  induction changes generalizing before with
  | nil =>
      have hbefore : change.fromStatus = before := hfrom
      exact ⟨hbefore, hbefore ▸ hallowed, trivial⟩
  | cons first rest ih =>
      obtain ⟨hfirst, hstep, hrest⟩ := hlifecycle
      refine ⟨hfirst, hstep, ih hrest ?_⟩
      rw [hfrom, List.getLast?_cons]
      cases rest.getLast? <;> rfl

/-- A history event: a status change chained to the event before it. -/
abbrev TrustEvent : Type := Link StatusChange String

def changeHash (primitives : Primitives) (keyId : String) (change : StatusChange)
    (previous : String) : String :=
  primitives.historyEventHash keyId change.body previous

/-- The event that records a change after the event with the hash `previous`. -/
def chained (primitives : Primitives) (keyId : String) (change : StatusChange)
    (previous : String) : TrustEvent :=
  ⟨change, previous, changeHash primitives keyId change previous⟩

/-- The hash of the last event. -/
def lastHash (history : List TrustEvent) : String :=
  (history.getLast?.map Link.hash).getD genesisHash

/-- The dictionary of an event. -/
def eventJson (event : TrustEvent) : Json :=
  .object [
    ("from_status", event.body.body.fromStatus),
    ("to_status", event.body.body.toStatus),
    ("occurred_at", event.body.body.occurredAt),
    ("reason", event.body.body.reason),
    ("prev_hash", .text event.previous),
    ("event_hash", .text event.hash)]

/-- The history verifies: the loop of `verify_history`, which answers the head. -/
def verifyEvents (primitives : Primitives) (keyId : String) :
    String → List TrustEvent → Except Raised String
  | previous, [] => .ok previous
  | previous, event :: rest => do
      check (event.previous = previous) "trust_history_prev_hash_mismatch"
      check (event.hash = changeHash primitives keyId event.body previous)
        "trust_history_event_hash_mismatch"
      verifyEvents primitives keyId event.hash rest

/-! ## Attestors -/

structure RecoveryAttestor where
  keyId : String
  publicKey : String
  name : String
  enabled : Bool := true
  deriving DecidableEq, Repr

/-- The key id that belongs to a public key. -/
def keyIdOf (primitives : Primitives) (raw : Bytes) : String :=
  "ed25519-" ++ String.ofList ((primitives.sha256 raw).toList.take 16)

/-- The public key is one, and the key id belongs to it. -/
def checkKey (primitives : Primitives) (keyId publicKey : String) : Except Raised PUnit := do
  let raw ← orRaise (trustError "invalid_attestor_public_key")
    (primitives.decodeBase64 publicKey)
  check (raw.length = 32) "invalid_attestor_public_key"
  check (keyId = keyIdOf primitives raw) "attestor_key_id_mismatch"

/-! ## The store -/

/-- A row of `recovery_attestors`. -/
structure AttestorRow where
  attestor : RecoveryAttestor
  status : RecoveryAttestorStatus
  deriving DecidableEq, Repr

def AttestorRow.keyId (row : AttestorRow) : String := row.attestor.keyId

/-- A row of `recovery_attestor_history` joined with its integrity row. -/
structure HistoryRow where
  keyId : String
  event : TrustEvent
  deriving DecidableEq, Repr

structure RecoveryAttestorStore where
  attestors : Table AttestorRow.keyId AttestorRow.keyId
  /-- In the order of the event ids. -/
  events : List HistoryRow

namespace RecoveryAttestorStore

def empty : RecoveryAttestorStore where
  attestors := .empty
  events := []

/-- `load`. -/
def load (store : RecoveryAttestorStore) : List AttestorRow :=
  store.attestors.rows.insertionSort fun left right => ¬right.keyId < left.keyId

/-- `history`. -/
def history (store : RecoveryAttestorStore) (keyId : String) : List TrustEvent :=
  (store.events.filter fun row => row.keyId = keyId).map HistoryRow.event

/-- `insert`, which answers the hash of the first event. -/
def insert (primitives : Primitives) (store : RecoveryAttestorStore)
    (attestor : RecoveryAttestor) (status : RecoveryAttestorStatus) (occurredAt : String) :
    Except Raised (RecoveryAttestorStore × String) := do
  let attestors ← orRaise
    ⟨.integrityError, "UNIQUE constraint failed: recovery_attestors.key_id"⟩
    (store.attestors.insert? ⟨attestor, status⟩)
  let event := chained primitives attestor.keyId ⟨none, status, occurredAt, "registered"⟩
    genesisHash
  pure (⟨attestors, store.events ++ [⟨attestor.keyId, event⟩]⟩, event.hash)

/-- `transition`, which answers the hash of the new event. -/
def transition (primitives : Primitives) (store : RecoveryAttestorStore) (keyId : String)
    (expectedStatus newStatus : RecoveryAttestorStatus) (reason occurredAt : String) :
    Except Raised (RecoveryAttestorStore × String) := do
  let row ← orRaise (trustError "untrusted_attestor") (store.attestors.lookup keyId)
  check (row.status = expectedStatus) "attestor_state_changed"
  let attestors := store.attestors.modify keyId
    (fun row => if row.status = expectedStatus then { row with status := newStatus } else row)
    (fun row => by split <;> rfl) (fun row => by split <;> rfl)
  let event := chained primitives keyId ⟨some expectedStatus, newStatus, occurredAt, reason⟩
    (lastHash (store.history keyId))
  pure (⟨attestors, store.events ++ [⟨keyId, event⟩]⟩, event.hash)

/-- `verify_history`, which answers the head hash. -/
def verifyHistory (primitives : Primitives) (store : RecoveryAttestorStore) (keyId : String) :
    Except Raised String := do
  check (store.history keyId ≠ []) "trust_history_missing"
  verifyEvents primitives keyId genesisHash (store.history keyId)

end RecoveryAttestorStore

/-! ## Registries -/

/-- What a registry holds about an attestor. -/
structure Entry where
  attestor : RecoveryAttestor
  status : RecoveryAttestorStatus
  history : List TrustEvent
  deriving DecidableEq, Repr

/-- A registry on a store.  While it is being opened it has read rows whose
histories it still has to read. -/
structure RecoveryAttestorRegistry where
  entries : String → Option Entry
  unread : List AttestorRow

namespace RecoveryAttestorRegistry

/-- `_load_store` up to its loop. -/
def opened (store : RecoveryAttestorStore) : RecoveryAttestorRegistry where
  entries := fun _ => none
  unread := store.load

def IsOpen (registry : RecoveryAttestorRegistry) : Prop := registry.unread = []

instance (registry : RecoveryAttestorRegistry) : Decidable registry.IsOpen :=
  inferInstanceAs (Decidable (_ = _))

def set (registry : RecoveryAttestorRegistry) (keyId : String) (entry : Entry) :
    RecoveryAttestorRegistry :=
  { registry with entries := Function.update registry.entries keyId (some entry) }

/-- The loop of `_load_store`, row by row. -/
def readNext (store : RecoveryAttestorStore) (registry : RecoveryAttestorRegistry) :
    RecoveryAttestorRegistry :=
  match registry.unread with
  | [] => registry
  | row :: rest =>
      { registry with unread := rest }.set row.keyId
        ⟨row.attestor, row.status, store.history row.keyId⟩

/-- `register`.  On an error the registry forgets what it had noted. -/
def register (primitives : Primitives) (store : RecoveryAttestorStore)
    (registry : RecoveryAttestorRegistry) (attestor : RecoveryAttestor) (occurredAt : String) :
    Except Raised (RecoveryAttestorStore × RecoveryAttestorRegistry) := do
  checkKey primitives attestor.keyId attestor.publicKey
  check (isBlank attestor.name = false) "attestor_name_required"
  match registry.entries attestor.keyId with
  | some existing =>
      check (existing.attestor.publicKey = attestor.publicKey) "attestor_key_mismatch"
      pure (store, registry)
  | none =>
      let status : RecoveryAttestorStatus := if attestor.enabled then .active else .suspended
      let (store, eventHash) ← store.insert primitives attestor status occurredAt
      let event : TrustEvent :=
        ⟨⟨none, status, occurredAt, "registered"⟩, genesisHash, eventHash⟩
      pure (store, registry.set attestor.keyId ⟨attestor, status, [event]⟩)

/-- `get`. -/
def get (registry : RecoveryAttestorRegistry) (keyId : String) : Option RecoveryAttestor :=
  (registry.entries keyId).map Entry.attestor

def entry (registry : RecoveryAttestorRegistry) (keyId : String) : Except Raised Entry :=
  orRaise (trustError "untrusted_attestor") (registry.entries keyId)

/-- `status`. -/
def status (registry : RecoveryAttestorRegistry) (keyId : String) :
    Except Raised RecoveryAttestorStatus := do
  let entry ← registry.entry keyId
  pure entry.status

/-- `history`. -/
def history (registry : RecoveryAttestorRegistry) (keyId : String) :
    Except Raised (List TrustEvent) := do
  let entry ← registry.entry keyId
  pure entry.history

/-- `transition`.  The event in memory is linked to the last event in memory,
while its hash is the one of the event in the store. -/
def transition (primitives : Primitives) (store : RecoveryAttestorStore)
    (registry : RecoveryAttestorRegistry) (keyId newStatus : String) (reason : Json)
    (occurredAt : String) :
    Except Raised (RecoveryAttestorStore × RecoveryAttestorRegistry) := do
  let entry ← registry.entry keyId
  let newStatus ← orRaise (trustError "invalid_attestor_status")
    (RecoveryAttestorStatus.ofText newStatus)
  check (newStatus ∈ entry.status.allowed) "invalid_attestor_transition"
  let reason ← orRaise (trustError "attestor_transition_reason_required") reason.filledText?
  let (store, eventHash) ←
    store.transition primitives keyId entry.status newStatus (strip reason) occurredAt
  let event : TrustEvent := ⟨⟨some entry.status, newStatus, occurredAt, strip reason⟩,
    lastHash entry.history, eventHash⟩
  pure (store, registry.set keyId
    { entry with status := newStatus, history := entry.history ++ [event] })

/-- `verify_history`, which asks the store. -/
def verifyHistory (primitives : Primitives) (store : RecoveryAttestorStore)
    (registry : RecoveryAttestorRegistry) (keyId : String) : Except Raised String := do
  let _ ← registry.entry keyId
  store.verifyHistory primitives keyId

/-- `require`. -/
def require (registry : RecoveryAttestorRegistry) (keyId publicKey : String) :
    Except Raised RecoveryAttestor := do
  let entry ← registry.entry keyId
  check (entry.attestor.enabled = true) "attestor_disabled"
  check (entry.status ≠ .suspended) "attestor_suspended"
  check (entry.status ≠ .revoked) "attestor_revoked"
  check (entry.attestor.publicKey = publicKey) "attestor_key_mismatch"
  pure entry.attestor

end RecoveryAttestorRegistry

/-! ## Artifacts -/

def schemaVersion : String := "recovery-trust-history-v1"

def trustHistoryArtifact (attestor : RecoveryAttestor) (status : RecoveryAttestorStatus)
    (history : List TrustEvent) : Json :=
  .object [
    ("schema_version", .text schemaVersion),
    ("key_id", .text attestor.keyId),
    ("public_key", .text attestor.publicKey),
    ("name", .text attestor.name),
    ("enabled", .bool attestor.enabled),
    ("status", .text status.value),
    ("history", .array (history.map eventJson)),
    ("head_hash", .text (lastHash history))]

/-- `export_trust_history_artifact`. -/
def exportTrustHistoryArtifact (primitives : Primitives) (store : RecoveryAttestorStore)
    (registry : RecoveryAttestorRegistry) (keyId : String) : Except Raised Json := do
  let attestor ← orRaise (trustError "untrusted_attestor") (registry.get keyId)
  let _ ← registry.verifyHistory primitives store keyId
  let history ← registry.history keyId
  let status ← registry.status keyId
  pure (trustHistoryArtifact attestor status history)

def artifactFields : List String :=
  ["schema_version", "key_id", "public_key", "name", "enabled", "status", "history",
    "head_hash"]

def eventFields : List String :=
  ["from_status", "to_status", "occurred_at", "reason", "prev_hash", "event_hash"]

/-- What the dictionary of an event says. -/
def bodyOf (event : Json) : EventBody where
  fromStatus := event.get "from_status"
  toStatus := event.get "to_status"
  occurredAt := event.get "occurred_at"
  reason := event.get "reason"

/-- The loop of `verify_trust_history_artifact`, which answers the head hash. -/
def verifyArtifactEvents (primitives : Primitives) (keyId : String) :
    String → List Json → Except Raised String
  | previous, [] => .ok previous
  | previous, event :: rest => do
      check (event.isObject = true) "trust_history_event_invalid"
      checkFields event eventFields "trust_history_event_fields_missing"
      check ((event.get "prev_hash").text? = some previous) "trust_history_prev_hash_mismatch"
      let expected := primitives.historyEventHash keyId (bodyOf event) previous
      check ((event.get "event_hash").text? = some expected)
        "trust_history_event_hash_mismatch"
      verifyArtifactEvents primitives keyId expected rest

/-- What `verify_trust_history_artifact` answers. -/
structure VerifiedTrustHistory where
  keyId : String
  headHash : String
  events : ℕ
  deriving DecidableEq, Repr

/-- `verify_trust_history_artifact`. -/
def verifyTrustHistoryArtifact (primitives : Primitives) (artifact : Json) :
    Except Raised VerifiedTrustHistory := do
  check (artifact.isObject = true) "trust_history_artifact_required"
  checkFields artifact artifactFields "trust_history_artifact_fields_missing"
  check ((artifact.get "schema_version").text? = some schemaVersion)
    "unsupported_trust_history_schema"
  let keyId ← orRaise (trustError "trust_history_key_id_required")
    ((artifact.get "key_id").text?.filter fun keyId => keyId ≠ "")
  let publicKey ← orRaise (trustError "trust_history_public_key_required")
    (artifact.get "public_key").text?
  checkKey primitives keyId publicKey
  check ((artifact.get "name").filledText?.isSome = true) "attestor_name_required"
  -- a status that cannot be hashed cannot be looked up in the set
  raiseUnless ((artifact.get "status").isHashable = true) ⟨.typeError, "unhashable type"⟩
  let status ← orRaise (trustError "invalid_attestor_status")
    ((artifact.get "status").text?.bind RecoveryAttestorStatus.ofText)
  let history := itemsOf (artifact.get "history")
  check (history ≠ []) "trust_history_missing"
  let headHash ← verifyArtifactEvents primitives keyId genesisHash history
  check ((artifact.get "head_hash").text? = some headHash) "trust_history_head_hash_mismatch"
  check (history.getLast?.bind (fun event => (event.get "to_status").text?) =
    some status.value) "trust_history_status_mismatch"
  pure ⟨keyId, headHash, history.length⟩

/-! ## What the store records -/

variable {primitives : Primitives}

theorem check_bind_eq_ok {condition : Prop} [Decidable condition] {message : String}
    {A : Type} {rest : PUnit → Except Raised A} {value : A}
    (hok : check condition message >>= rest = .ok value) : condition ∧ rest ⟨⟩ = .ok value :=
  raiseUnless_bind_eq_ok hok

theorem check_bind_eq_ok_iff {condition : Prop} [Decidable condition] {message : String}
    {A : Type} {rest : PUnit → Except Raised A} {value : A} :
    (check condition message >>= rest) = .ok value ↔ condition ∧ rest ⟨⟩ = .ok value :=
  raiseUnless_bind_eq_ok_iff

theorem checkFields_bind_eq_ok_iff {payload : Json} {required : List String}
    {message : String} {A : Type} {rest : PUnit → Except Raised A} {value : A} :
    (checkFields payload required message >>= rest) = .ok value ↔
      (∀ field ∈ required, field ∈ payload.keys) ∧ rest ⟨⟩ = .ok value := by
  rw [← Json.missing_eq_none_iff, checkFields]
  cases payload.missing required with
  | none =>
      simp only [true_and]
      rfl
  | some absent =>
      simp only [reduceCtorEq, false_and, iff_false]
      nofun

/-- A history verifies when it is a chain. -/
theorem verifyEvents_eq_ok_iff {keyId previous head : String} {history : List TrustEvent} :
    verifyEvents primitives keyId previous history = .ok head ↔
      Linked (changeHash primitives keyId) previous history head := by
  induction history generalizing previous with
  | nil =>
      rw [verifyEvents, Except.ok.injEq, eq_comm]
      rfl
  | cons event rest ih =>
      rw [verifyEvents, check_bind_eq_ok_iff, check_bind_eq_ok_iff, ih]
      rfl

@[simp]
theorem lastHash_concat (history : List TrustEvent) (event : TrustEvent) :
    lastHash (history ++ [event]) = event.hash := by
  simp [lastHash]

/-- A chain grows by the event that records a change. -/
theorem linked_concat_chained {keyId : String} {history : List TrustEvent}
    (hlinked : Linked (changeHash primitives keyId) genesisHash history (lastHash history))
    (change : StatusChange) :
    Linked (changeHash primitives keyId) genesisHash
      (history ++ [chained primitives keyId change (lastHash history)])
      (lastHash (history ++ [chained primitives keyId change (lastHash history)])) := by
  rw [lastHash_concat]
  exact hlinked.concat change

namespace RecoveryAttestorStore

variable {store after : RecoveryAttestorStore} {eventHash : String}

theorem history_concat (attestors : Table AttestorRow.keyId AttestorRow.keyId)
    (events : List HistoryRow) (keyId : String) (event : TrustEvent) (wanted : String) :
    history ⟨attestors, events ++ [⟨keyId, event⟩]⟩ wanted =
      if keyId = wanted then history ⟨attestors, events⟩ wanted ++ [event]
      else history ⟨attestors, events⟩ wanted := by
  by_cases hkey : keyId = wanted
  · simp [history, hkey]
  · simp [history, hkey]

theorem mem_load {row : AttestorRow} : row ∈ store.load ↔ row ∈ store.attestors.rows :=
  List.mem_insertionSort _

theorem insert_eq_ok {attestor : RecoveryAttestor} {status : RecoveryAttestorStatus}
    {occurredAt : String}
    (hinsert : store.insert primitives attestor status occurredAt = .ok (after, eventHash)) :
    store.attestors.lookup attestor.keyId = none ∧
      (∀ keyId, after.attestors.lookup keyId =
        if attestor.keyId = keyId then some ⟨attestor, status⟩
        else store.attestors.lookup keyId) ∧
      (∀ keyId, after.history keyId =
        if attestor.keyId = keyId then store.history keyId ++
          [chained primitives attestor.keyId ⟨none, status, occurredAt, "registered"⟩
            genesisHash]
        else store.history keyId) ∧
      eventHash = changeHash primitives attestor.keyId
        ⟨none, status, occurredAt, "registered"⟩ genesisHash := by
  obtain ⟨attestors, hattestors, hrecorded⟩ := orRaise_bind_eq_ok hinsert
  obtain ⟨rfl, rfl⟩ := Prod.mk.inj (Except.ok.inj hrecorded)
  have hrow : store.attestors.insert? ⟨attestor, status⟩ = some attestors := hattestors
  exact ⟨(Table.insert?_eq_some_iff.mp hrow).1, Table.lookup_insert? hrow,
    fun keyId => history_concat attestors store.events attestor.keyId _ keyId, rfl⟩

theorem transition_eq_ok {keyId reason occurredAt : String}
    {expectedStatus newStatus : RecoveryAttestorStatus}
    (htransition : store.transition primitives keyId expectedStatus newStatus reason
      occurredAt = .ok (after, eventHash)) :
    ∃ row, store.attestors.lookup keyId = some row ∧ row.status = expectedStatus ∧
      (∀ wanted, after.attestors.lookup wanted =
        if wanted = keyId then some { row with status := newStatus }
        else store.attestors.lookup wanted) ∧
      (∀ wanted, after.history wanted =
        if keyId = wanted then store.history wanted ++
          [chained primitives keyId ⟨some expectedStatus, newStatus, occurredAt, reason⟩
            (lastHash (store.history keyId))]
        else store.history wanted) ∧
      eventHash = changeHash primitives keyId
        ⟨some expectedStatus, newStatus, occurredAt, reason⟩
        (lastHash (store.history keyId)) := by
  obtain ⟨row, hrow, hchecked⟩ := orRaise_bind_eq_ok htransition
  obtain ⟨hstatus, hrecorded⟩ := check_bind_eq_ok hchecked
  obtain ⟨rfl, rfl⟩ := Prod.mk.inj (Except.ok.inj hrecorded)
  refine ⟨row, hrow, hstatus, ?_, ?_, rfl⟩
  · intro wanted
    rw [Table.lookup_modify, hrow, Option.map_some, if_pos hstatus]
  · intro wanted
    exact history_concat _ store.events keyId _ wanted

end RecoveryAttestorStore

end AegisForge.Shared.RecoveryTrust
