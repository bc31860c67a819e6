import AegisForge.Shared.TemporalProofs
import AegisForge.Shared.TrustHistoryExport

/-!
# The two trust gates

A verifier asks the registry with `require`, and a signer with
`current_trust_context`.  The first looks at the attestor's flag and status, the
second at its status and at the last event of its history.
-/

namespace AegisForge.Shared.TrustGates

open AegisForge.Core RecoveryTrust RecoveryTemporal TrustHistoryExport

/-- The context accepts the key exactly when `require` accepts it with the
public key that it was registered with. -/
def TrustGatesAgree (primitives : RecoveryTemporal.Primitives)
    (registry : RecoveryAttestorRegistry) (keyId : String) (entry : Entry) : Prop :=
  (∃ context, currentTrustContext primitives registry keyId = .ok context) ↔
    ∃ attestor, registry.require keyId entry.attestor.publicKey = .ok attestor

/-- The status that the last event of the history leads to. -/
def lastStatus (entry : Entry) : Option RecoveryAttestorStatus :=
  entry.history.getLast?.map fun event => event.body.toStatus

/-- The attestor is active, and either it is enabled or the last event is an
activation, but not both. -/
def ActiveInOneGate (entry : Entry) : Prop :=
  entry.status = .active ∧ ¬(entry.attestor.enabled = true ↔ lastStatus entry = some .active)

section Gates

variable {primitives : RecoveryTemporal.Primitives} {registry : RecoveryAttestorRegistry}
variable {keyId : String} {entry : Entry}

theorem trustEventId_eventJson (hkeyId : keyId ≠ "") (event : TrustEvent) :
    ∃ eventId, trustEventId primitives (.text keyId) (eventJson event) = .ok eventId := by
  simp only [trustEventId, Json.text?, Option.filter_some, hkeyId, ne_eq, not_false_eq_true,
    decide_true, ↓reduceIte]
  exact ⟨_, rfl⟩

theorem currentTrustContext_accepts_iff (hentry : registry.entries keyId = some entry)
    (hkeyId : keyId ≠ "") :
    (∃ context, currentTrustContext primitives registry keyId = .ok context) ↔
      entry.status = .active ∧ lastStatus entry = some .active := by
  constructor
  · rintro ⟨context, hcontext⟩
    obtain ⟨attestor, -, hstatus⟩ := orRaise_bind_eq_ok hcontext
    obtain ⟨status, hheld, hactive⟩ := bind_eq_ok hstatus
    obtain ⟨rfl, hhistory⟩ := ensure_bind_eq_ok hactive
    obtain ⟨history, hread, hlast⟩ := bind_eq_ok hhistory
    obtain ⟨event, hevent, hactivated⟩ := orRaise_bind_eq_ok hlast
    obtain ⟨hto, -⟩ := ensure_bind_eq_ok hactivated
    rw [RecoveryAttestorRegistry.status, RecoveryAttestorRegistry.entry, hentry] at hheld
    rw [RecoveryAttestorRegistry.history, RecoveryAttestorRegistry.entry, hentry] at hread
    have hsame : entry.history = history := Except.ok.inj hread
    refine ⟨Except.ok.inj hheld, ?_⟩
    rw [lastStatus, hsame, hevent, Option.map_some, hto]
  · rintro ⟨hactive, hlast⟩
    obtain ⟨event, hevent, hto⟩ := Option.map_eq_some_iff.mp hlast
    obtain ⟨eventId, heventId⟩ := @trustEventId_eventJson primitives keyId hkeyId event
    refine ⟨⟨keyId, entry.attestor.publicKey, eventId, event⟩, ?_⟩
    simp only [currentTrustContext, RecoveryAttestorRegistry.get,
      RecoveryAttestorRegistry.status, RecoveryAttestorRegistry.history,
      RecoveryAttestorRegistry.entry, hentry, hactive, hevent, hto, heventId, Option.map_some,
      orRaise, ensure, raiseUnless, bind, Except.bind, pure, Except.pure, ↓reduceIte]

theorem require_accepts_iff (hentry : registry.entries keyId = some entry) :
    (∃ attestor, registry.require keyId entry.attestor.publicKey = .ok attestor) ↔
      entry.attestor.enabled = true ∧ entry.status = .active := by
  constructor
  · rintro ⟨attestor, haccepted⟩
    obtain ⟨held, hheld, hchecked⟩ := bind_eq_ok haccepted
    rw [RecoveryAttestorRegistry.entry, hentry] at hheld
    obtain rfl := Except.ok.inj hheld
    obtain ⟨henabled, hchecked⟩ := check_bind_eq_ok hchecked
    obtain ⟨hsuspended, hchecked⟩ := check_bind_eq_ok hchecked
    obtain ⟨hrevoked, -⟩ := check_bind_eq_ok hchecked
    refine ⟨henabled, ?_⟩
    cases hstatus : entry.status with
    | active => rfl
    | suspended => exact absurd hstatus hsuspended
    | revoked => exact absurd hstatus hrevoked
  · rintro ⟨henabled, hactive⟩
    refine ⟨entry.attestor, ?_⟩
    simp [RecoveryAttestorRegistry.require, RecoveryAttestorRegistry.entry, hentry, henabled,
      hactive, orRaise, check, raiseUnless, bind, Except.bind, pure, Except.pure]

/-- The gates disagree on the attestors that are active in one of them only. -/
theorem trustGatesAgree_iff_not_activeInOneGate (hentry : registry.entries keyId = some entry)
    (hkeyId : keyId ≠ "") :
    TrustGatesAgree primitives registry keyId entry ↔ ¬ActiveInOneGate entry := by
  rw [TrustGatesAgree, currentTrustContext_accepts_iff hentry hkeyId,
    require_accepts_iff hentry, ActiveInOneGate]
  tauto

end Gates

/-- Registered key ids are not empty. -/
theorem keyId_ne_empty {primitives : RecoveryTrust.Primitives} {system : System}
    {registry : RecoveryAttestorRegistry} {keyId : String} {entry : Entry}
    (hsound : system.Sound primitives) (hregistry : registry ∈ system.registries)
    (hentry : registry.entries keyId = some entry) : keyId ≠ "" := by
  obtain ⟨row, hrow, -⟩ := (hsound.registries registry hregistry).entries keyId entry hentry
  have hvalid := hsound.store.valid keyId row hrow
  have hrowKey : row.keyId = keyId := Table.key_of_lookup hrow
  obtain ⟨raw, -, hchecked⟩ := orRaise_bind_eq_ok hvalid.key
  obtain ⟨-, hmatches⟩ := check_bind_eq_ok hchecked
  have hkeyId : row.attestor.keyId = keyIdOf primitives raw := raiseUnless_eq_ok hmatches
  rw [← hrowKey, AttestorRow.keyId, hkeyId, keyIdOf]
  simp

/-- In every run and for every registry and key, the gates agree unless the
attestor is active in one of them only. -/
theorem trustGatesAgree_iff (primitives : RecoveryTemporal.Primitives) (calls : List Call) :
    ∀ registry ∈ (run (System.step primitives.toPrimitives) System.empty calls).registries,
      ∀ keyId entry, registry.entries keyId = some entry →
        (TrustGatesAgree primitives registry keyId entry ↔ ¬ActiveInOneGate entry) := by
  intro registry hregistry keyId entry hentry
  have hsound := @System.sound_run primitives.toPrimitives calls
  exact trustGatesAgree_iff_not_activeInOneGate hentry (keyId_ne_empty hsound hregistry hentry)

/-- Suspended and activated again, an enabled attestor passes both gates. -/
theorem trustGatesAgree_orderlyCalls :
    ∃ registry entry, (run (System.step TemporalProofs.samplePrimitives.toPrimitives)
        System.empty TemporalProofs.orderlyCalls).registries[0]? = some registry ∧
      registry.entries Sample.keyId = some entry ∧ ¬ActiveInOneGate entry ∧
        TrustGatesAgree TemporalProofs.samplePrimitives registry Sample.keyId entry := by
  have hheld : ∃ registry, (run (System.step TemporalProofs.samplePrimitives.toPrimitives)
      System.empty TemporalProofs.orderlyCalls).registries[0]? = some registry ∧
        ∃ entry, registry.entries Sample.keyId = some entry ∧
          entry.attestor.enabled = true ∧ lastStatus entry = some .active := by
    decide +kernel
  obtain ⟨registry, hregistry, entry, hentry, henabled, hlast⟩ := hheld
  have hone : ¬ActiveInOneGate entry := fun hone => hone.2 (by simp [henabled, hlast])
  exact ⟨registry, entry, hregistry, hentry, hone,
    (trustGatesAgree_iff TemporalProofs.samplePrimitives TemporalProofs.orderlyCalls registry
      (List.mem_of_getElem? hregistry) Sample.keyId entry hentry).mpr hone⟩

/-- An attestor is registered as disabled and activated afterwards. -/
def disabledCalls : List Call :=
  [.opens, .register 0 { Sample.attestor with enabled := false } "2026-01-01",
    Sample.activate 0]

theorem not_trustGatesAgree_disabledCalls :
    ¬∀ primitives calls,
      ∀ registry ∈ (run (System.step primitives.toPrimitives) System.empty calls).registries,
        ∀ keyId entry, registry.entries keyId = some entry →
          TrustGatesAgree primitives registry keyId entry := by
  intro hagree
  have hheld : ∃ registry, (run (System.step TemporalProofs.samplePrimitives.toPrimitives)
      System.empty disabledCalls).registries[0]? = some registry ∧
        ∃ entry, registry.entries Sample.keyId = some entry ∧ entry.status = .active ∧
          entry.attestor.enabled = false ∧ lastStatus entry = some .active := by
    decide +kernel
  obtain ⟨registry, hregistry, entry, hentry, hactive, hdisabled, hlast⟩ := hheld
  have hsame := hagree TemporalProofs.samplePrimitives disabledCalls registry
    (List.mem_of_getElem? hregistry) Sample.keyId entry hentry
  have haccepted := hsame.mp
    ((currentTrustContext_accepts_iff hentry (by decide)).mpr ⟨hactive, hlast⟩)
  obtain ⟨henabled, -⟩ := (require_accepts_iff hentry).mp haccepted
  rw [hdisabled] at henabled
  cases henabled

end AegisForge.Shared.TrustGates
