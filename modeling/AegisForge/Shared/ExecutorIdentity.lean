import Mathlib.Algebra.Order.Ring.Int
import Mathlib.Data.List.Pairwise
import AegisForge.Concurrency.Safety
import AegisForge.Core.Table

/-!
# Identities of executors

The registry gives every change an epoch: one more than the largest that it read.
The digest of an identity never changes.  Epochs are not given twice as long as
nobody writes between a call's reading the largest epoch and its own write.
-/

namespace AegisForge.Shared.ExecutorIdentity

open AegisForge.Core AegisForge.Concurrency

inductive RegistryError
  | executorIdentityRegistryError (message : String)
  | integrityError
  deriving DecidableEq

structure ExecutorIdentityRecord where
  executorId : String
  version : String
  implementationDigest : String
  status : String := "ACTIVE"
  registryEpoch : ℤ := 1
  deriving DecidableEq

namespace ExecutorIdentityRecord

/-- The primary key. -/
def identity (row : ExecutorIdentityRecord) : String × String := (row.executorId, row.version)

def withStatus (status : String) (epoch : ℤ) (row : ExecutorIdentityRecord) :
    ExecutorIdentityRecord :=
  { row with status := status, registryEpoch := epoch }

theorem identity_withStatus (status : String) (epoch : ℤ) (row : ExecutorIdentityRecord) :
    (row.withStatus status epoch).identity = row.identity := rfl

end ExecutorIdentityRecord

/-- The table `executor_identity_registry`. -/
abbrev Registry := Table ExecutorIdentityRecord.identity ExecutorIdentityRecord.identity

/-- `SELECT MAX(registry_epoch)`. -/
def maxEpoch (registry : Registry) : Option ℤ :=
  (registry.rows.map ExecutorIdentityRecord.registryEpoch).max?

inductive Statement
  | select (identity : String × String)
  | selectMax
  | insert (row : ExecutorIdentityRecord)
  | update (identity : String × String) (status : String) (epoch : ℤ)

abbrev Statement.Reply : Statement → Type
  | .select _ => Option ExecutorIdentityRecord
  | .selectMax => Option ℤ
  | .insert _ => Bool
  | .update _ _ _ => Unit

def setStatusIn (identity : String × String) (status : String) (epoch : ℤ)
    (registry : Registry) : Registry :=
  registry.modify identity (.withStatus status epoch)
    (ExecutorIdentityRecord.identity_withStatus status epoch)
    (ExecutorIdentityRecord.identity_withStatus status epoch)

def execute : Execution Statement.Reply Registry
  | .select identity, registry => (registry.lookup identity, registry)
  | .selectMax, registry => (maxEpoch registry, registry)
  | .insert row, registry =>
      match registry.insert? row with
      | some after => (true, after)
      | none => (false, registry)
  | .update identity status epoch, registry => ((), setStatusIn identity status epoch registry)

abbrev Action := Program Statement.Reply RegistryError

def send (statement : Statement) : Action statement.Reply := .call statement

def raised (message : String) : RegistryError := .executorIdentityRegistryError message

/-- `_next_epoch`. -/
def nextEpoch : Action ℤ := do
  let largest ← send .selectMax
  return (largest.getD 0) + 1

def register (executorId version implementationDigest : String) :
    Action ExecutorIdentityRecord := do
  Program.raiseIf (executorId = "") (raised "executor_id_required")
  Program.raiseIf (version = "") (raised "executor_version_required")
  Program.raiseIf (implementationDigest = "") (raised "executor_implementation_digest_required")
  let found ← send (.select (executorId, version))
  match found with
  | some row =>
      Program.raiseIf (row.implementationDigest ≠ implementationDigest)
        (raised "executor_identity_conflict")
      Program.raiseIf (row.status ≠ "ACTIVE") (raised "executor_identity_not_active")
      return row
  | none =>
      let epoch ← nextEpoch
      let row : ExecutorIdentityRecord :=
        ⟨executorId, version, implementationDigest, "ACTIVE", epoch⟩
      let inserted ← send (.insert row)
      Program.raiseIf (inserted = false) .integrityError
      return row

def setStatus (executorId version status : String) : Action ExecutorIdentityRecord := do
  Program.raiseIf (status ∉ ["ACTIVE", "SUSPENDED", "REVOKED"])
    (raised "invalid_executor_identity_status")
  let found ← send (.select (executorId, version))
  match found with
  | none => .fail (raised "executor_identity_not_registered")
  | some row =>
      let epoch ← nextEpoch
      send (.update (executorId, version) status epoch)
      return row.withStatus status epoch

inductive RegistryCall
  | register (executorId version implementationDigest : String)
  | setStatus (executorId version status : String)

def RegistryCall.body : RegistryCall → Action ExecutorIdentityRecord
  | .register executorId version digest => ExecutorIdentity.register executorId version digest
  | .setStatus executorId version status => ExecutorIdentity.setStatus executorId version status

abbrev RegistryPool :=
  Pool RegistryCall Statement.Reply Registry RegistryError ExecutorIdentityRecord

abbrev RegistryHistory := History Statement Registry

abbrev RegistryEvent := Event Statement Registry

/-! ## Digests -/

variable {registry : Registry} {identity : String × String} {digest : String}

/-- The digest is stored for the identity. -/
def HasDigest (identity : String × String) (digest : String) (registry : Registry) : Prop :=
  ∃ row, registry.lookup identity = some row ∧ row.implementationDigest = digest

theorem HasDigest.execute (hdigest : HasDigest identity digest registry) (statement : Statement) :
    HasDigest identity digest (execute statement registry).2 := by
  obtain ⟨row, hrow, hsame⟩ := hdigest
  cases statement with
  | select => exact ⟨row, hrow, hsame⟩
  | selectMax => exact ⟨row, hrow, hsame⟩
  | insert inserted =>
      rw [ExecutorIdentity.execute]
      split
      case h_1 after hinsert =>
        refine ⟨row, ?_, hsame⟩
        have hfresh := (Table.insert?_eq_some_iff.mp hinsert).1
        have hother : inserted.identity ≠ identity := by
          intro heq
          rw [heq, hrow] at hfresh
          cases hfresh
        rw [Table.lookup_insert? hinsert, if_neg hother, hrow]
      case h_2 => exact ⟨row, hrow, hsame⟩
  | update changed status epoch =>
      have hafter : (ExecutorIdentity.execute (.update changed status epoch) registry).2 =
          setStatusIn changed status epoch registry := rfl
      rw [hafter, HasDigest, setStatusIn, Table.lookup_modify]
      by_cases hchanged : identity = changed
      · rw [if_pos hchanged, ← hchanged, hrow]
        exact ⟨row.withStatus status epoch, rfl, hsame⟩
      · rw [if_neg hchanged]
        exact ⟨row, hrow, hsame⟩

/-! ## Writes -/

variable {process other : ℕ} {statement : Statement} {event : RegistryEvent}

/-- The statement changes the table that it finds. -/
def writes (statement : Statement) (registry : Registry) : Bool :=
  match statement with
  | .insert row => (registry.lookup row.identity).isNone
  | .update identity _ _ => (registry.lookup identity).isSome
  | _ => false

/-- The epoch that a statement writes. -/
def writtenEpoch : Statement → ℤ
  | .insert row => row.registryEpoch
  | .update _ _ epoch => epoch
  | _ => 0

/-- The event changed the table. -/
def isWrite (event : RegistryEvent) : Bool := writes event.statement event.found

theorem execute_of_not_writes (hwrites : writes statement registry = false) :
    (execute statement registry).2 = registry := by
  cases statement with
  | select => rfl
  | selectMax => rfl
  | insert row =>
      have htaken : registry.insert? row = none := by
        rw [writes, Option.isNone_eq_false_iff, Option.isSome_iff_exists] at hwrites
        obtain ⟨held, hheld⟩ := hwrites
        rw [Option.eq_none_iff_forall_ne_some]
        intro after hinsert
        rw [(Table.insert?_eq_some_iff.mp hinsert).1] at hheld
        cases hheld
      rw [execute, htaken]
  | update changed status epoch =>
      have hnone : registry.lookup changed = none := by simpa [writes] using hwrites
      apply Table.ext
      rw [Table.lookup_eq_none_iff] at hnone
      have hkept : ∀ row ∈ registry.rows,
          (if row.identity = changed then row.withStatus status epoch else row) = row := by
        intro row hrow
        refine if_neg fun heq : row.identity = changed => hnone ?_
        exact heq ▸ List.mem_map_of_mem hrow
      exact (List.map_congr_left hkept).trans (List.map_id' _)

/-- A write leaves a row with the epoch that it writes. -/
theorem exists_writtenEpoch (hwrites : writes statement registry = true) :
    ∃ row ∈ (execute statement registry).2.rows, row.registryEpoch = writtenEpoch statement := by
  cases statement with
  | select => cases hwrites
  | selectMax => cases hwrites
  | insert row =>
      have hfresh : registry.lookup row.identity = none := by simpa [writes] using hwrites
      obtain ⟨after, hinsert⟩ := registry.exists_insert? row hfresh
        (Table.lookup_eq_none_iff.mp hfresh)
      rw [execute, hinsert]
      exact ⟨row, (Table.mem_insert? hinsert).mpr (Or.inr rfl), rfl⟩
  | update changed status epoch =>
      obtain ⟨row, hrow⟩ := Option.isSome_iff_exists.mp hwrites
      have hlast : row.withStatus status epoch ∈ (setStatusIn changed status epoch registry).rows :=
        Table.mem_modify.mpr (Or.inr ⟨row, hrow, rfl⟩)
      exact ⟨row.withStatus status epoch, hlast, rfl⟩

theorem lt_next_of_mem {row : ExecutorIdentityRecord} (hrow : row ∈ registry.rows) :
    row.registryEpoch < (maxEpoch registry).getD 0 + 1 := by
  have hmem : row.registryEpoch ∈ registry.rows.map ExecutorIdentityRecord.registryEpoch :=
    List.mem_map_of_mem hrow
  cases hmax : maxEpoch registry with
  | none =>
      rw [maxEpoch, List.max?_eq_none_iff] at hmax
      rw [hmax] at hmem
      cases hmem
  | some largest => exact Int.lt_add_one_of_le ((List.max?_eq_some_iff.mp hmax).2 _ hmem)

/-! ## Schedules -/

/-- The call read the largest epoch. -/
def isRead (process : ℕ) (event : RegistryEvent) : Bool :=
  match event.statement with
  | .selectMax => event.process = process
  | _ => false

/-- What was executed since the call last read the largest epoch. -/
def sinceRead (process : ℕ) (trace : List RegistryEvent) : List RegistryEvent :=
  trace.takeWhile fun event => !isRead process event

/-- The statement would change the table after someone changed it since the call
read the largest epoch. -/
def isOvertaken (process : ℕ) (history : RegistryHistory) (statement : Statement) : Bool :=
  writes statement history.store && (sinceRead process history.trace).any isWrite

/-- No call writes what it computed from a largest epoch that is no longer current. -/
def notOvertaken :
    Schedule RegistryCall Statement.Reply Registry RegistryError ExecutorIdentityRecord where
  starts := fun _ _ => True
  permits := fun process statement history => isOvertaken process history statement = false

instance (pool : RegistryPool) (call : RegistryCall) : Decidable (notOvertaken.starts pool call) :=
  inferInstanceAs (Decidable True)

instance (process : ℕ) (statement : Statement) (history : RegistryHistory) :
    Decidable (notOvertaken.permits process statement history) :=
  inferInstanceAs (Decidable (_ = false))

/-! ## Epochs -/

variable {history later : RegistryHistory}

/-- Each write had a larger epoch than those before it, and some row has an epoch
that is at least as large. -/
structure Increasing (history : RegistryHistory) : Prop where
  pairwise : (history.trace.filter isWrite).Pairwise fun later earlier =>
    writtenEpoch earlier.statement < writtenEpoch later.statement
  reached : ∀ event ∈ history.trace, isWrite event = true →
    ∃ row ∈ history.store.rows, writtenEpoch event.statement ≤ row.registryEpoch

/-- A write needs an epoch above all that are stored. -/
def Exceeds (statement : Statement) (registry : Registry) : Prop :=
  writes statement registry = true → ∀ row ∈ registry.rows,
    row.registryEpoch < writtenEpoch statement

theorem Increasing.record (hincreasing : Increasing history)
    (hexceeds : Exceeds statement history.store) :
    Increasing (history.record execute process statement) := by
  cases hwrites : writes statement history.store with
  | false =>
      have hquiet : isWrite (⟨process, statement, history.store⟩ : RegistryEvent) = false := hwrites
      refine ⟨?_, fun event hevent hwrite => ?_⟩
      · rw [History.record_trace, List.filter_cons, if_neg (by simp [hquiet])]
        exact hincreasing.pairwise
      · rw [History.record_store, execute_of_not_writes hwrites]
        rcases List.mem_cons.mp hevent with rfl | hold
        · rw [hquiet] at hwrite
          cases hwrite
        · exact hincreasing.reached event hold hwrite
  | true =>
      have hwriting : isWrite (⟨process, statement, history.store⟩ : RegistryEvent) = true := hwrites
      obtain ⟨last, hlast, hepoch⟩ := exists_writtenEpoch hwrites
      have hgrows : ∀ event ∈ history.trace, isWrite event = true →
          writtenEpoch event.statement < writtenEpoch statement := by
        intro event hevent hwrite
        obtain ⟨row, hrow, hle⟩ := hincreasing.reached event hevent hwrite
        exact hle.trans_lt (hexceeds hwrites row hrow)
      refine ⟨?_, fun event hevent hwrite => ⟨last, hlast, ?_⟩⟩
      · rw [History.record_trace, List.filter_cons, if_pos hwriting, List.pairwise_cons]
        refine ⟨fun event hevent => ?_, hincreasing.pairwise⟩
        obtain ⟨hevent, hwrite⟩ := List.mem_filter.mp hevent
        exact hgrows event hevent hwrite
      · rw [hepoch]
        rcases List.mem_cons.mp hevent with rfl | hold
        · exact le_rfl
        · exact (hgrows event hold hwrite).le

def rules : Rules execute :=
  Rules.ofInvariant execute Increasing notOvertaken.permits
    (fun _ statement history => Exceeds statement history.store)
    fun hincreasing _ hexceeds => hincreasing.record hexceeds

/-! ## What a call has read and written -/

/-- Unless someone wrote since the call read the largest epoch, the table is the
one that it read. -/
def Tracked (process : ℕ) (read : Registry) (history : RegistryHistory) : Prop :=
  (sinceRead process history.trace).any isWrite = false → history.store = read

/-- The call has not changed the table. -/
def Silent (process : ℕ) (history : RegistryHistory) : Prop :=
  ∀ event ∈ history.own process, isWrite event = false

theorem Tracked.record {read : Registry} (htracked : Tracked process read history)
    (hread : isRead process ⟨other, statement, history.store⟩ = false) :
    Tracked process read (history.record execute other statement) := by
  intro hquiet
  have hsince : sinceRead process (history.record execute other statement).trace =
      ⟨other, statement, history.store⟩ :: sinceRead process history.trace := by
    rw [sinceRead, History.record_trace, List.takeWhile_cons, if_pos (by simp [hread])]
    rfl
  rw [hsince, List.any_cons, Bool.or_eq_false_iff] at hquiet
  exact (execute_of_not_writes hquiet.1).trans (htracked hquiet.2)

theorem Tracked.rely {read : Registry} (htracked : Tracked process read history)
    (hrely : rules.rely process history later) : Tracked process read later := by
  refine Rules.stable_of_interferes (Tracked process read) ?_ hrely htracked
  intro other statement last hne _ _ _ hlast
  refine hlast.record ?_
  cases statement <;> simp [isRead, hne]

theorem tracked_read : Tracked process history.store (history.record execute process .selectMax) :=
  fun _ => rfl

theorem Silent.rely (hsilent : Silent process history)
    (hrely : rules.rely process history later) : Silent process later := by
  rw [Silent, Rules.own_of_interferes hrely]
  exact hsilent

theorem Silent.record (hsilent : Silent process history)
    (hquiet : writes statement history.store = false) :
    Silent process (history.record execute process statement) := by
  rw [Silent, History.own_record_self]
  exact List.forall_mem_cons.mpr ⟨hquiet, hsilent⟩

/-- Whatever the call wrote, it returns the epoch of it. -/
def Reports (process : ℕ) (answer : ExecutorIdentityRecord) (history : RegistryHistory) : Prop :=
  ∀ event ∈ history.own process, isWrite event = true →
    writtenEpoch event.statement = answer.registryEpoch

theorem Silent.reports (hsilent : Silent process history) (answer : ExecutorIdentityRecord) :
    Reports process answer history := by
  intro event hevent hwrite
  rw [hsilent event hevent] at hwrite
  cases hwrite

theorem Reports.rely {answer : ExecutorIdentityRecord} (hreports : Reports process answer history)
    (hrely : rules.rely process history later) : Reports process answer later := by
  rw [Reports, Rules.own_of_interferes hrely]
  exact hreports

/-! ## The calls -/

/-- What was computed from the largest epoch exceeds what is stored, unless the
write is overtaken. -/
theorem Tracked.exceeds {read : Registry} (htracked : Tracked process read history)
    (hpermits : isOvertaken process history statement = false)
    (hepoch : writtenEpoch statement = (maxEpoch read).getD 0 + 1) :
    Exceeds statement history.store := by
  intro hwrites row hrow
  rw [isOvertaken, hwrites, Bool.true_and] at hpermits
  rw [htracked hpermits] at hrow
  rw [hepoch]
  exact lt_next_of_mem hrow

theorem reports_record {answer : ExecutorIdentityRecord} (hsilent : Silent process history)
    (hepoch : writtenEpoch statement = answer.registryEpoch) :
    Reports process answer (history.record execute process statement) := by
  rw [Reports, History.own_record_self]
  exact List.forall_mem_cons.mpr ⟨fun _ => hepoch, hsilent.reports answer⟩

/-- A write after the largest epoch was read, and what comes after it. -/
theorem safe_write {read : Registry} (answer : ExecutorIdentityRecord)
    {rest : statement.Reply → Action ExecutorIdentityRecord}
    (htracked : Tracked process read history) (hsilent : Silent process history)
    (hepoch : writtenEpoch statement = (maxEpoch read).getD 0 + 1)
    (hanswer : answer.registryEpoch = (maxEpoch read).getD 0 + 1)
    (hrest : ∀ reply, rest reply = .done answer ∨ ∃ error, rest reply = .fail error) :
    rules.Safe process (Reports process) (fun _ _ => True) ((send statement).bind rest)
      history := by
  apply Rules.Safe.call
  intro writing hrely _ hpermits
  refine ⟨(htracked.rely hrely).exceeds hpermits hepoch, ?_⟩
  have hreports : Reports process answer (writing.record execute process statement) :=
    reports_record (hsilent.rely hrely) (hepoch.trans hanswer.symm)
  rcases hrest (execute statement writing.store).1 with hdone | ⟨error, hfail⟩
  · rw [hdone]
    exact fun last hlast _ => hreports.rely hlast
  · rw [hfail]
    exact fun _ _ _ => trivial

/-- Reading the largest epoch, and what comes after it. -/
theorem safe_nextEpoch {rest : ℤ → Action ExecutorIdentityRecord}
    (hsilent : Silent process history)
    (hrest : ∀ read reading, Tracked process read reading → Silent process reading →
      rules.Safe process (Reports process) (fun _ _ => True)
        (rest ((maxEpoch read).getD 0 + 1)) reading) :
    rules.Safe process (Reports process) (fun _ _ => True) (nextEpoch.bind rest) history := by
  intro reading hrely _ _
  have hquiet : Exceeds .selectMax reading.store := fun hwrites => by cases hwrites
  have hsilence : Silent process (reading.record execute process .selectMax) :=
    (hsilent.rely hrely).record rfl
  exact ⟨hquiet, hrest reading.store _ tracked_read hsilence⟩

theorem safe_select {rest : Option ExecutorIdentityRecord → Action ExecutorIdentityRecord}
    (hsilent : Silent process history)
    (hrest : ∀ found reading, Silent process reading →
      rules.Safe process (Reports process) (fun _ _ => True) (rest found) reading) :
    rules.Safe process (Reports process) (fun _ _ => True)
      ((send (.select identity)).bind rest) history := by
  intro reading hrely _ _
  have hquiet : Exceeds (.select identity) reading.store := fun hwrites => by cases hwrites
  have hsilence : Silent process (reading.record execute process (.select identity)) :=
    (hsilent.rely hrely).record rfl
  exact ⟨hquiet, hrest _ _ hsilence⟩

theorem safe_fail {error : RegistryError} :
    rules.Safe process (Reports process) (fun _ _ => True) (.fail error) history :=
  fun _ _ _ => trivial

theorem safe_register (executorId version implementationDigest : String)
    (hsilent : Silent process history) :
    rules.Safe process (Reports process) (fun _ _ => True)
      (register executorId version implementationDigest) history := by
  refine Rules.Safe.raiseIf (fun _ => safe_fail) fun _ => ?_
  refine Rules.Safe.raiseIf (fun _ => safe_fail) fun _ => ?_
  refine Rules.Safe.raiseIf (fun _ => safe_fail) fun _ => ?_
  refine safe_select hsilent fun found reading hread => ?_
  cases found with
  | some row =>
      refine Rules.Safe.raiseIf (fun _ => safe_fail) fun _ => ?_
      refine Rules.Safe.raiseIf (fun _ => safe_fail) fun _ => ?_
      exact fun last hlast _ => (hread.reports row).rely hlast
  | none =>
      refine safe_nextEpoch hread fun read computed htracked hsilent => ?_
      refine safe_write ⟨executorId, version, implementationDigest, "ACTIVE", _⟩ htracked hsilent
        rfl rfl fun inserted => ?_
      cases inserted with
      | true => exact Or.inl rfl
      | false => exact Or.inr ⟨_, rfl⟩

theorem safe_setStatus (executorId version status : String) (hsilent : Silent process history) :
    rules.Safe process (Reports process) (fun _ _ => True)
      (setStatus executorId version status) history := by
  refine Rules.Safe.raiseIf (fun _ => safe_fail) fun _ => ?_
  refine safe_select hsilent fun found reading hread => ?_
  cases found with
  | none => exact safe_fail
  | some row =>
      refine safe_nextEpoch hread fun read computed htracked hsilent => ?_
      exact safe_write (row.withStatus status _) htracked hsilent rfl rfl fun _ => Or.inl rfl

/-! ## Every interleaving -/

/-- The call has returned the record. -/
def Returned (pool : RegistryPool) (index : ℕ) (answer : ExecutorIdentityRecord) : Prop :=
  ∃ call, pool.processes[index]? = some ⟨call, .done answer⟩

/-- A statement of the call has changed the table. -/
def Changed (pool : RegistryPool) (index : ℕ) : Prop :=
  ∃ event ∈ pool.history.own index, event.after execute ≠ event.found

/-- No digest that was stored has changed, and no two calls that changed the table
returned one epoch. -/
structure Consistent (pool : RegistryPool) : Prop where
  digests : ∀ event ∈ pool.history.trace, ∀ identity digest,
    HasDigest identity digest event.found → HasDigest identity digest pool.history.store
  epochs : ∀ first second left right, first ≠ second → Changed pool first →
    Changed pool second → Returned pool first left → Returned pool second right →
      left.registryEpoch ≠ right.registryEpoch

/-- In every interleaving, the digest of an identity stays what it was. -/
theorem hasDigest_of_reaches
    {schedule : Schedule RegistryCall Statement.Reply Registry RegistryError
      ExecutorIdentityRecord}
    {start : Registry} {pool : RegistryPool}
    (hreaches : Pool.Reaches execute RegistryCall.body schedule (Pool.idle start) pool)
    {event : RegistryEvent} (hevent : event ∈ pool.history.trace)
    (hfound : HasDigest identity digest event.found) :
    HasDigest identity digest pool.history.store := by
  have hchained : Chained execute start pool.history.trace pool.history.store :=
    hreaches.chained rfl
  exact Pool.kept_of_chained (HasDigest identity digest)
    (fun statement _ hdigest => hdigest.execute statement) hchained hevent hfound

theorem isWrite_of_changed (hchanged : event.after execute ≠ event.found) :
    isWrite event = true := by
  by_contra hquiet
  exact hchanged (execute_of_not_writes (Bool.eq_false_iff.mpr hquiet))

theorem Increasing.epoch_ne (hincreasing : Increasing history) {first second : RegistryEvent}
    (hfirst : first ∈ history.trace ∧ isWrite first = true)
    (hsecond : second ∈ history.trace ∧ isWrite second = true) (hne : first ≠ second) :
    writtenEpoch first.statement ≠ writtenEpoch second.statement := by
  have hdistinct : (history.trace.filter isWrite).Pairwise fun left right =>
      writtenEpoch left.statement ≠ writtenEpoch right.statement :=
    hincreasing.pairwise.imp fun hlt => hlt.ne'
  have hsymm : Std.Symm fun left right : RegistryEvent =>
      writtenEpoch left.statement ≠ writtenEpoch right.statement := ⟨fun _ _ hother => hother.symm⟩
  exact hdistinct.forall (List.mem_filter.mpr hfirst) (List.mem_filter.mpr hsecond) hne

theorem Changed.exists_write {pool : RegistryPool} {index : ℕ} (hchanged : Changed pool index) :
    ∃ event ∈ pool.history.own index, isWrite event = true := by
  obtain ⟨event, hevent, hafter⟩ := hchanged
  exact ⟨event, hevent, isWrite_of_changed hafter⟩

/-- If no call writes after the table changed since it read the largest epoch,
no digest changes and no two changes are given one epoch. -/
theorem consistent_of_notOvertaken {start : Registry} {pool : RegistryPool}
    (hreaches : Pool.Reaches execute RegistryCall.body notOvertaken (Pool.idle start) pool) :
    Consistent pool := by
  have hidle : rules.invariant ⟨start, []⟩ := ⟨List.Pairwise.nil, by simp⟩
  have hsound : Rules.Sound rules
      (fun process (_ : RegistryCall) answer history => Reports process answer history)
      (fun _ _ _ _ => True) pool := by
    refine Rules.Sound.reaches ?_ ?_ (Rules.Sound.idle hidle) hreaches
    · exact fun _ _ _ hpermits => hpermits
    · intro before call _ _ hown
      have hsilent : Silent before.processes.length before.history := by
        rw [Silent, hown]
        simp
      cases call with
      | register executorId version digest => exact safe_register _ _ _ hsilent
      | setStatus executorId version status => exact safe_setStatus _ _ _ hsilent
  refine ⟨fun event hevent identity digest hfound => hasDigest_of_reaches hreaches hevent hfound, ?_⟩
  intro first second left right hne hfirst hsecond hleft hright
  obtain ⟨earlier, hearlier, hwritten⟩ := hfirst.exists_write
  obtain ⟨later, hlater, hrewritten⟩ := hsecond.exists_write
  obtain ⟨call, hcall⟩ := hleft
  obtain ⟨other, hother⟩ := hright
  rw [← hsound.of_done hcall earlier hearlier hwritten,
    ← hsound.of_done hother later hlater hrewritten]
  obtain ⟨hmem, hprocess⟩ := History.mem_own.mp hearlier
  obtain ⟨hlast, hindex⟩ := History.mem_own.mp hlater
  have hevents : earlier ≠ later := by
    rintro rfl
    exact hne (hprocess.symm.trans hindex)
  exact hsound.invariant.epoch_ne ⟨hmem, hwritten⟩ ⟨hlast, hrewritten⟩ hevents

/-! ## Two registrations at once -/

def pool (moves : List (Move RegistryCall)) : RegistryPool :=
  (Pool.idle Table.empty).run execute RegistryCall.body moves

def register1 : Move RegistryCall := .start (.register "executor-1" "1.0" "digest-1")

def register2 : Move RegistryCall := .start (.register "executor-2" "1.0" "digest-2")

/-- One after the other, and then a change of the first. -/
def orderlyMoves : List (Move RegistryCall) :=
  [register1, register2, .advance 0, .advance 1, .advance 0, .advance 0, .advance 1, .advance 1,
    .start (.setStatus "executor-1" "1.0" "SUSPENDED"), .advance 2, .advance 2, .advance 2]

theorem consistent_orderlyMoves : Consistent (pool orderlyMoves) :=
  consistent_of_notOvertaken (Pool.reaches_run_of_allows (by decide +kernel))

/-- Both read the largest epoch before one of them writes. -/
def racingMoves : List (Move RegistryCall) :=
  [register1, register2, .advance 0, .advance 1, .advance 0, .advance 1, .advance 0, .advance 1]

/-- The two calls have inserted their rows. -/
theorem changed_racingMoves : ∀ index ∈ [0, 1], Changed (pool racingMoves) index := by
  intro index hindex
  have hlength : ∀ event : RegistryEvent,
      (event.after execute).rows.length ≠ event.found.rows.length →
        event.after execute ≠ event.found :=
    fun _ hlength heq => hlength (congrArg (fun registry : Registry => registry.rows.length) heq)
  rcases List.mem_pair.mp hindex with rfl | rfl
  · exact ⟨_, .head _, hlength _ (by decide +kernel)⟩
  · exact ⟨_, .head _, hlength _ (by decide +kernel)⟩

theorem not_consistent_racingMoves :
    ¬∀ (start : Registry) (pool : RegistryPool),
      Pool.Reaches execute RegistryCall.body .unrestricted (Pool.idle start) pool →
        Consistent pool := by
  intro hall
  have hconsistent := hall Table.empty (pool racingMoves) (Pool.reaches_run _ _)
  exact hconsistent.epochs 0 1 ⟨"executor-1", "1.0", "digest-1", "ACTIVE", 1⟩
    ⟨"executor-2", "1.0", "digest-2", "ACTIVE", 1⟩ (by decide)
    (changed_racingMoves 0 (by simp)) (changed_racingMoves 1 (by simp)) ⟨_, rfl⟩ ⟨_, rfl⟩ rfl

end AegisForge.Shared.ExecutorIdentity
