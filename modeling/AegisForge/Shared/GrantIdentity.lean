import AegisForge.Shared.AuthorityEpochs

/-!
# The grant behind a grant id

The store looks a grant up by its id alone.  A row never changes its payload,
so an id denotes one grant as long as no authorization finds an active row
that was registered for another grant.
-/

namespace AegisForge.Shared.GrantIdentity

open AegisForge.Core AegisForge.Concurrency AuthorityUpdates

/-- The payload stored under the id of the grant is the grant. -/
def IsStored (signed : SignedCapabilityGrant) (world : World) : Prop :=
  ∃ row, world.grants.lookup signed.grant.grantId = some row ∧ row.payload = signed

/-- An active row under the id of the grant is the row of the grant. -/
def Matches (signed : SignedCapabilityGrant) (world : World) : Prop :=
  ∀ row, world.grants.lookup signed.grant.grantId = some row → row.status = .active →
    row.payload = signed

/-- The arguments of `authorize`, and the gate. -/
structure Authorization where
  gate : ExecutionGate
  signed : SignedCapabilityGrant
  intent : ActionIntent
  evidenceIds : List String := []
  now : Option Time := none

namespace Authorization

def run (authorization : Authorization) (world : World) :
    Except Raised CapabilityGrant × World :=
  (authorization.gate.authorize authorization.signed authorization.intent
    authorization.evidenceIds authorization.now).run execute world

def Accepts (authorization : Authorization) (world : World) : Prop :=
  ∃ grant, (authorization.run world).1 = .ok grant

/-- Every check of `authorize` but the one of the grant store passes. -/
structure Passes (authorization : Authorization) (world : World) : Prop where
  verified : authorization.gate.grant authorization.signed = .ok authorization.signed.grant
  intentSigned : authorization.gate.verifySignedActionIntent authorization.signed.grant
    (authorization.now.getD world.clock) = .ok ()
  policyVersion : authorization.signed.grant.policyVersion = CapabilityPolicy.version
  authority : ∃ registry authority, authorization.gate.authorityRegistry = some registry ∧
    (registry.get authorization.signed.grant.agentId).run execute world =
      (.ok authority, world) ∧
    ExecutionGate.checkAuthority authorization.signed.grant authority = .ok ()
  consumable : authorization.gate.checkConsumable authorization.signed.grant
    authorization.intent authorization.evidenceIds world.clock
      (authorization.now.getD world.clock) = .ok ()

end Authorization

/-! ## Registering -/

/-- What `ensure_registered` does on a database of its own. -/
theorem run_ensureRegistered (signed : SignedCapabilityGrant) (world : World) :
    (∃ row, world.grants.lookup signed.grant.grantId = some row ∧
      (CapabilityGrantStore.ensureRegistered signed).run execute world =
        (.ok row.status, world)) ∨
    (∃ grants, world.grants.insert? ⟨signed, .active⟩ = some grants ∧
      (CapabilityGrantStore.ensureRegistered signed).run execute world =
        (.ok .active, { world with grants := grants })) ∨
    ∃ error, (CapabilityGrantStore.ensureRegistered signed).run execute world =
      (.error error, world) := by
  cases hrow : world.grants.lookup signed.grant.grantId with
  | some row =>
      exact Or.inl ⟨row, rfl, by
        simp [CapabilityGrantStore.ensureRegistered, send, Program.call, execute, hrow]⟩
  | none =>
      cases hinsert : world.grants.insert? ⟨signed, .active⟩ with
      | some grants =>
          refine Or.inr (Or.inl ⟨grants, rfl, ?_⟩)
          simp [CapabilityGrantStore.ensureRegistered, CapabilityGrantStore.register, send,
            Program.call, execute, hrow, hinsert]
      | none =>
          refine Or.inr (Or.inr ⟨CapabilityGrantStore.grantStoreError
            "grant_already_finalized", ?_⟩)
          simp [CapabilityGrantStore.ensureRegistered, CapabilityGrantStore.register, send,
            Program.call, execute, hrow, hinsert]

theorem clock_ensureRegistered {signed : SignedCapabilityGrant} {world after : World}
    {status : GrantStatus} (hrun :
      (CapabilityGrantStore.ensureRegistered signed).run execute world = (.ok status, after)) :
    after.clock = world.clock := by
  rcases run_ensureRegistered signed world with ⟨row, -, hcase⟩ | ⟨grants, -, hcase⟩ |
    ⟨error, hcase⟩
  · rw [← (Prod.mk.inj (hcase.symm.trans hrun)).2]
  · rw [← (Prod.mk.inj (hcase.symm.trans hrun)).2]
  · cases hcase.symm.trans hrun

/-- A grant that is answered as active is stored if an active row matched it. -/
theorem isStored_iff_matches {signed : SignedCapabilityGrant} {world after : World}
    (hrun : (CapabilityGrantStore.ensureRegistered signed).run execute world =
      (.ok .active, after)) : IsStored signed after ↔ Matches signed world := by
  rcases run_ensureRegistered signed world with ⟨row, hrow, hcase⟩ |
    ⟨grants, hinsert, hcase⟩ | ⟨error, hcase⟩
  · obtain ⟨hstatus, rfl⟩ := Prod.mk.inj (hcase.symm.trans hrun)
    have hactive : row.status = .active := Except.ok.inj hstatus
    simp [IsStored, Matches, hrow, hactive]
  · obtain ⟨-, rfl⟩ := Prod.mk.inj (hcase.symm.trans hrun)
    obtain ⟨hfresh, -, -⟩ := Table.insert?_eq_some_iff.mp hinsert
    have hunknown : world.grants.lookup signed.grant.grantId = none := hfresh
    refine iff_of_true ⟨⟨signed, .active⟩, ?_, rfl⟩ ?_
    · exact (Table.lookup_insert? hinsert signed.grant.grantId).trans (if_pos rfl)
    · rw [Matches, hunknown]
      exact fun _ hrow => by cases hrow
  · cases hcase.symm.trans hrun

/-! ## Authorizing -/

theorem run_get_eq_ok {registry : AgentAuthorityRegistry} {agentId : String}
    {authority : AgentAuthority} {world after : World}
    (hget : (registry.get agentId).run execute world = (.ok authority, after)) :
    after = world := by
  by_cases hagent : agentId = ""
  · simp [AgentAuthorityRegistry.get, Program.raiseIf, hagent] at hget
  · cases hrow : world.registry.lookup agentId with
    | none =>
        simp [AgentAuthorityRegistry.get, Program.raiseIf, hagent, send, Program.call, execute,
          hrow] at hget
    | some row =>
        obtain ⟨found, hfound⟩ := run_get registry hagent hrow
        exact (Prod.mk.inj (hget.symm.trans hfound)).2

theorem run_currentTime (now : Option Time) (world : World) :
    (currentTime now).run execute world = (.ok (now.getD world.clock), world) := by
  cases now <;> rfl

/-- `authorize` accepts when the other checks pass and the store answers that
the grant is active; the database is the one the store left. -/
theorem run_eq_ok_iff {authorization : Authorization} {world after : World}
    {grant : CapabilityGrant} :
    authorization.run world = (.ok grant, after) ↔
      authorization.Passes world ∧ grant = authorization.signed.grant ∧
        (CapabilityGrantStore.ensureRegistered authorization.signed).run execute world =
          (.ok .active, after) := by
  constructor
  · intro hrun
    obtain ⟨verified, _, hgrant, hverify⟩ := Program.run_bind_eq_ok execute hrun
    obtain ⟨hverified, rfl⟩ := Program.run_ofExcept_eq_ok execute hgrant
    obtain rfl := ExecutionGate.grant_eq_ok hverified
    obtain ⟨verifiedAt, _, hclock, hintent⟩ := Program.run_bind_eq_ok execute hverify
    rw [run_currentTime] at hclock
    cases hclock
    obtain ⟨_, _, hartifact, hpolicy⟩ := Program.run_bind_eq_ok execute hintent
    obtain ⟨hsigned, rfl⟩ := Program.run_ofExcept_eq_ok execute hartifact
    obtain ⟨_, _, hdiffers, hregistry⟩ := Program.run_bind_eq_ok execute hpolicy
    obtain ⟨hversion, rfl⟩ := Program.run_raiseIf_eq_ok execute hdiffers
    split at hregistry
    case h_1 => cases hregistry
    case h_2 registry hgate =>
      obtain ⟨authority, _, hget, hcheck⟩ := Program.run_bind_eq_ok execute hregistry
      have hread := Program.run_mapError_eq_ok execute hget
      obtain rfl := run_get_eq_ok hread
      obtain ⟨_, _, hcurrentAuthority, hstore⟩ := Program.run_bind_eq_ok execute hcheck
      obtain ⟨hcompare, rfl⟩ := Program.run_ofExcept_eq_ok execute hcurrentAuthority
      obtain ⟨status, stored, hwrapped, hstatus⟩ := Program.run_bind_eq_ok execute hstore
      have hensure := Program.run_mapError_eq_ok execute hwrapped
      obtain ⟨_, _, hraise, hconsume⟩ := Program.run_bind_eq_ok execute hstatus
      obtain ⟨hactive, rfl⟩ := Program.run_raiseIf_eq_ok execute hraise
      rw [not_not] at hactive
      subst hactive
      have hstoredAt := clock_ensureRegistered hensure
      obtain ⟨clock, _, htick, hcurrent⟩ := Program.run_bind_eq_ok execute hconsume
      cases htick
      obtain ⟨current, _, htime, hcheck⟩ := Program.run_bind_eq_ok execute hcurrent
      rw [run_currentTime] at htime
      cases htime
      obtain ⟨_, _, hbinding, hanswer⟩ := Program.run_bind_eq_ok execute hcheck
      obtain ⟨hconsumable, rfl⟩ := Program.run_ofExcept_eq_ok execute hbinding
      cases hanswer
      have hpasses : authorization.gate.checkConsumable authorization.signed.grant
          authorization.intent authorization.evidenceIds after.clock
            (authorization.now.getD after.clock) = .ok () := hconsumable
      rw [hstoredAt] at hpasses
      exact ⟨⟨hverified, hsigned, not_not.mp hversion,
        ⟨registry, authority, hgate, hread, hcompare⟩, hpasses⟩, rfl, hensure⟩
  · rintro ⟨hpasses, rfl, hregistered⟩
    obtain ⟨registry, authority, hgate, hget, hcompare⟩ := hpasses.authority
    have hclock := clock_ensureRegistered hregistered
    have hread : (send .readClock).run execute after = (.ok world.clock, after) := by
      rw [← hclock]
      rfl
    simp [Authorization.run, ExecutionGate.authorize, Program.run_bind, Program.ofExcept,
      Program.raiseIf, hpasses.verified, run_currentTime, hpasses.intentSigned,
      hpasses.policyVersion, hgate, wrap, Program.mapError, Program.run_tryCatch, hget,
      hcompare, hregistered, hread, hclock, hpasses.consumable]

/-! ## Runs -/

/-- An authorization, or a statement of any other call. -/
inductive Step
  | authorize (authorization : Authorization)
  | execute (statement : Statement)

def Step.apply : Step → World → World
  | .authorize authorization, world => (authorization.run world).2
  | .execute statement, world => (AegisForge.Shared.execute statement world).2

def after (steps : List Step) (start : World) : World :=
  steps.foldl (fun world step => step.apply world) start

/-- The authorization is a step of the run that finds this database. -/
def Meets (start : World) (steps : List Step) (authorization : Authorization)
    (found : World) : Prop :=
  ∃ earlier later, steps = earlier ++ .authorize authorization :: later ∧
    after earlier start = found

/-- What an authorization accepts is what is stored under its id, and no two
grants of one id are accepted. -/
def DenotesOneGrant (start : World) (steps : List Step) : Prop :=
  (∀ authorization found, Meets start steps authorization found →
    authorization.Accepts found →
      IsStored authorization.signed (authorization.run found).2) ∧
  ∀ first second firstFound secondFound, Meets start steps first firstFound →
    Meets start steps second secondFound → first.Accepts firstFound →
      second.Accepts secondFound →
        first.signed.grant.grantId = second.signed.grant.grantId →
          first.signed = second.signed

theorem isStored_execute {signed : SignedCapabilityGrant} {world : World}
    (statement : Statement) (hstored : IsStored signed world) :
    IsStored signed (execute statement world).2 := by
  obtain ⟨row, hrow, hpayload⟩ := hstored
  refine ⟨_, lookup_grants_execute hrow statement, ?_⟩
  rw [← hpayload]
  cases statement with
  | revokeGrant wanted =>
      rw [grantEffect]
      split
      · exact GrantRow.finish_payload _ row
      · rfl
  | consumeGrant wanted =>
      rw [grantEffect]
      split
      · exact GrantRow.finish_payload _ row
      · rfl
  | _ => rfl

theorem isStored_apply {signed : SignedCapabilityGrant} {world : World} (step : Step)
    (hstored : IsStored signed world) : IsStored signed (step.apply world) := by
  cases step with
  | execute statement => exact isStored_execute statement hstored
  | authorize authorization =>
      have hkept : ∀ (statement : Statement) (store : World), True →
          IsStored signed store → IsStored signed (execute statement store).2 :=
        fun statement _ _ => isStored_execute statement
      exact Program.run_kept execute hkept (Program.within_true _) hstored

theorem isStored_after {signed : SignedCapabilityGrant} {world : World}
    (steps : List Step) (hstored : IsStored signed world) :
    IsStored signed (after steps world) := by
  induction steps generalizing world with
  | nil => exact hstored
  | cons step steps ih => exact ih (isStored_apply step hstored)

/-- Two grants that are stored under one id are one. -/
theorem IsStored.unique {first second : SignedCapabilityGrant} {world : World}
    (hfirst : IsStored first world) (hsecond : IsStored second world)
    (hsame : first.grant.grantId = second.grant.grantId) : first = second := by
  obtain ⟨row, hrow, rfl⟩ := hfirst
  obtain ⟨other, hother, rfl⟩ := hsecond
  rw [hsame, hother] at hrow
  rw [Option.some.inj hrow]

theorem accepts_iff {authorization : Authorization} {world : World} :
    authorization.Accepts world ↔ authorization.Passes world ∧
      (CapabilityGrantStore.ensureRegistered authorization.signed).run execute world =
        (.ok .active, (authorization.run world).2) := by
  constructor
  · rintro ⟨grant, hgrant⟩
    obtain ⟨hpasses, -, hregistered⟩ := run_eq_ok_iff.mp (Prod.ext hgrant rfl)
    exact ⟨hpasses, hregistered⟩
  · rintro ⟨hpasses, hregistered⟩
    exact ⟨_, congrArg Prod.fst (run_eq_ok_iff.mpr ⟨hpasses, rfl, hregistered⟩)⟩

theorem accepts_of_isOk {authorization : Authorization} {world : World}
    (hrun : (authorization.run world).1.isOk = true) : authorization.Accepts world := by
  cases hresult : (authorization.run world).1 with
  | error error => simp [hresult, Except.isOk, Except.toBool] at hrun
  | ok grant => exact ⟨grant, hresult⟩

/-- An active row under its id lets every grant through that passes otherwise. -/
theorem accepts_of_active {authorization : Authorization} {world : World} {row : GrantRow}
    (hpasses : authorization.Passes world)
    (hrow : world.grants.lookup authorization.signed.grant.grantId = some row)
    (hactive : row.status = .active) : authorization.Accepts world := by
  have hregistered : (CapabilityGrantStore.ensureRegistered authorization.signed).run execute
      world = (.ok .active, world) := by
    simp [CapabilityGrantStore.ensureRegistered, send, Program.call, execute, hrow, hactive]
  exact ⟨_, congrArg Prod.fst (run_eq_ok_iff.mpr ⟨hpasses, rfl, hregistered⟩)⟩

/-- An accepted grant is stored at the end of the run if it matched. -/
theorem isStored_end {start found : World} {steps : List Step}
    {authorization : Authorization} (hmeets : Meets start steps authorization found)
    (haccepts : authorization.Accepts found) (hmatches : Matches authorization.signed found) :
    IsStored authorization.signed (after steps start) := by
  obtain ⟨earlier, later, rfl, rfl⟩ := hmeets
  have hstored := (isStored_iff_matches (accepts_iff.mp haccepts).2).mpr hmatches
  rw [after, List.foldl_append]
  exact isStored_after later hstored

/-- A grant id denotes one grant exactly in the runs in which no authorization
that passes the other checks finds an active row of another grant under its id. -/
theorem denotesOneGrant_iff (start : World) (steps : List Step) :
    DenotesOneGrant start steps ↔
      ∀ authorization found, Meets start steps authorization found →
        authorization.Passes found → Matches authorization.signed found := by
  constructor
  · rintro ⟨hstores, -⟩ authorization found hmeets hpasses row hrow hactive
    have haccepts := accepts_of_active hpasses hrow hactive
    have hstored := hstores authorization found hmeets haccepts
    exact (isStored_iff_matches (accepts_iff.mp haccepts).2).mp hstored row hrow hactive
  · intro hmatches
    have hmatched : ∀ authorization found, Meets start steps authorization found →
        authorization.Accepts found → Matches authorization.signed found :=
      fun authorization found hmeets haccepts =>
        hmatches authorization found hmeets (accepts_iff.mp haccepts).1
    constructor
    · intro authorization found hmeets haccepts
      have hmatched := hmatched authorization found hmeets haccepts
      exact (isStored_iff_matches (accepts_iff.mp haccepts).2).mpr hmatched
    · intro first second firstFound secondFound hfirst hsecond hfirstAccepts hsecondAccepts
      apply IsStored.unique
      · exact isStored_end hfirst hfirstAccepts (hmatched _ _ hfirst hfirstAccepts)
      · exact isStored_end hsecond hsecondAccepts (hmatched _ _ hsecond hsecondAccepts)

/-! ## A grant that is issued again -/

/-- The grant of a retry, whose id and nonce come from the recovery. -/
def retryGrant (expiresAt : Time) : SignedCapabilityGrant :=
  Sample.signer.sign { Sample.grant with
    grantId := "retry-grant_recovery_1"
    nonce := "retry-nonce_retry-grant_recovery_1"
    expiresAt := .at expiresAt }

def authorizeRetry (expiresAt : Time) : Authorization where
  gate := Sample.gate
  signed := retryGrant expiresAt
  intent := Sample.intent

/-- The grant of a retry and the one that is issued after a takeover are both
accepted. -/
theorem not_denotesOneGrant_reissued :
    ¬DenotesOneGrant Sample.world
      [.authorize (authorizeRetry (minutes 5)), .authorize (authorizeRetry (minutes 6))] := by
  rintro ⟨-, hunique⟩
  have hfirst : (authorizeRetry (minutes 5)).Accepts Sample.world :=
    accepts_of_isOk (by decide +kernel)
  have hsecond : (authorizeRetry (minutes 6)).Accepts
      (after [.authorize (authorizeRetry (minutes 5))] Sample.world) :=
    accepts_of_isOk (by decide +kernel)
  have hsame := hunique _ _ _ _ ⟨[], _, rfl, rfl⟩ ⟨[_], [], rfl, rfl⟩ hfirst hsecond rfl
  have hexpires := congrArg (fun signed => signed.grant.expiresAt) hsame
  exact absurd hexpires (by decide)

end AegisForge.Shared.GrantIdentity
