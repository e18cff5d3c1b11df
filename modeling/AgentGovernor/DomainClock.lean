import AgentGovernor.DomainAgent
import AgentGovernor.DomainResource
import AgentGovernor.RevocationDomain

/-! What the normalization of instants does to the validators that rely on it: it goes through a 64-bit count
of nanoseconds, and they test for the zero time and compare only afterwards. -/

namespace AgentGovernor

/-- A validator that read `t` as `normalized` had the caller's instant, and it was not the zero time. -/
def Time.ReadAs (t normalized : Time) : Prop := normalized.nanos = t.nanos ∧ t.isZero = false

theorem representable_iff {t : Time} : t.representable = true ↔ -2 ^ 63 ≤ t.nanos ∧ t.nanos ≤ 2 ^ 63 - 1 := by
  rw [Time.representable, decide_eq_true_eq, wrapInt64, Int.bmod_def]
  split_ifs <;> omega

theorem not_zero_of_representable {t : Time} (h : t.representable = true) : t.isZero = false := by
  rw [Time.isZero, decide_eq_false_iff_not]
  intro hzero
  have hwrap := of_decide_eq_true h
  rw [hzero] at hwrap
  revert hwrap
  decide

theorem readAs_of_requireUTC {t normalized : Time} (h : requireUTC t = .ok normalized)
    (ht : t.representable = true) : t.ReadAs normalized :=
  ⟨nanos_of_requireUTC h ht, not_zero_of_representable ht⟩

theorem requireUTC_of_settlement {candidate result : ResourceSettlement}
    (h : validateResourceSettlement candidate = .ok result) :
    requireUTC candidate.settledAt = .ok result.settledAt := by
  unfold validateResourceSettlement at h
  dsimp only at h
  split_ifs at h
  split at h
  · cases h
  · rename_i settledAt hsettled
    split_ifs at h
    cases h
    exact hsettled

theorem requireUTC_of_revocationInstant {t normalized : Time} (h : revocationInstant t = .ok normalized) :
    requireUTC t = .ok normalized := by
  obtain ⟨read, hread, h⟩ := bind_eq_ok.mp h
  split_ifs at h
  cases h
  exact mapError_eq_ok.mp hread

theorem requireUTC_of_revocation {v result : Revocation} (h : validateRevocation v = .ok result) :
    requireUTC v.effectiveAt = .ok result.effectiveAt ∧ requireUTC v.createdAt = .ok result.createdAt ∧
      ∀ expiry ∈ v.expiresAt, ∃ expiresAt, requireUTC expiry = .ok expiresAt ∧
        expiresAt.after result.effectiveAt = true := by
  unfold validateRevocation at h
  dsimp only at h
  split_ifs at h
  · cases h
  · obtain ⟨effectiveAt, heffective, h⟩ := bind_eq_ok.mp h
    obtain ⟨createdAt, hcreated, h⟩ := bind_eq_ok.mp h
    have heffective := requireUTC_of_revocationInstant heffective
    have hcreated := requireUTC_of_revocationInstant hcreated
    split at h
    · rename_i hnone
      cases h
      exact ⟨heffective, hcreated, fun _ hmem => by cases hnone.symm.trans hmem⟩
    · rename_i expiry hsome
      obtain ⟨expiresAt, hexpires, h⟩ := bind_eq_ok.mp h
      split_ifs at h with hafter
      cases h
      refine ⟨heffective, hcreated, fun expiry' hmem => ?_⟩
      cases hsome.symm.trans hmem
      exact ⟨expiresAt, mapError_eq_ok.mp hexpires, hafter⟩

theorem requireUTC_of_revocationLift {v result : RevocationLift} (h : validateRevocationLift v = .ok result) :
    requireUTC v.changedAt = .ok result.changedAt := by
  unfold validateRevocationLift at h
  dsimp only at h
  split_ifs at h
  · cases h
  · obtain ⟨changedAt, hchanged, h⟩ := bind_eq_ok.mp h
    cases h
    exact requireUTC_of_revocationInstant hchanged

theorem requireUTC_of_agent {agent : Agent} (h : agent.validate = .ok ()) :
    ∃ created updated, requireUTC agent.createdAt = .ok created ∧ requireUTC agent.updatedAt = .ok updated ∧
      created.nanos ≤ updated.nanos := by
  unfold Agent.validate at h
  split_ifs at h
  split at h
  · cases h
  · rename_i created hcreated
    split_ifs at h
    split at h
    · cases h
    · rename_i updated hupdated
      split_ifs at h with hbefore
      exact ⟨created, updated, hcreated, hupdated, not_lt.mp hbefore⟩

theorem requireUTC_of_transition {run : RunLifecycle} {command : RunTransition} {result : RunLifecycle × Bool}
    (h : run.transition command = .ok result) :
    ∃ normalized, requireUTC command.instant = .ok normalized ∧ run.updatedAt.nanos ≤ normalized.nanos := by
  unfold RunLifecycle.transition at h
  split at h
  · cases h
  · cases h
  · rename_i normalized _ hnormalized
    rw [ite_error_eq_ok] at h
    exact ⟨normalized, hnormalized, not_lt.mp fun hlt => h.1 (Or.inr hlt)⟩

/-- What the normalization of an instant and the validators that rely on it make of it: the same instant,
never the zero time, and an order that is the one of the callers' instants. -/
structure Time.Preserved (t : Time) : Prop where
  instant : ∀ normalized, requireUTC t = .ok normalized → normalized.nanos = t.nanos
  agent : ∀ agent : Agent, agent.createdAt = t → agent.validate = .ok () →
    t.isZero = false ∧ (agent.updatedAt.representable = true → t.after agent.updatedAt = false)
  transition : ∀ run command result, command.instant = t → RunLifecycle.transition run command = .ok result →
    t.isZero = false ∧ run.updatedAt.after t = false
  usage : ∀ dep usage result, usage.recordedAt = t → validateTrustedUsage dep usage = .ok result →
    t.ReadAs result.recordedAt
  extension : ∀ candidate result, candidate.createdAt = t → validateResourceExtension candidate = .ok result →
    t.ReadAs result.createdAt
  settlement : ∀ candidate result, candidate.settledAt = t → validateResourceSettlement candidate = .ok result →
    t.ReadAs result.settledAt
  effective : ∀ v result, v.effectiveAt = t → validateRevocation v = .ok result →
    t.ReadAs result.effectiveAt ∧ ∀ expiry ∈ v.expiresAt, expiry.representable = true → expiry.after t = true
  created : ∀ v result, v.createdAt = t → validateRevocation v = .ok result → t.ReadAs result.createdAt
  lift : ∀ v result, v.changedAt = t → validateRevocationLift v = .ok result → t.ReadAs result.changedAt

/-- An instant in UTC is preserved exactly when nanoseconds in 64 bits can express it. -/
theorem requireUTC_preserves_iff {t : Time} (hutc : t.utc = true) :
    t.Preserved ↔ -2 ^ 63 ≤ t.nanos ∧ t.nanos ≤ 2 ^ 63 - 1 := by
  rw [← representable_iff]
  constructor
  · intro h
    exact decide_eq_true (h.instant ⟨wrapInt64 t.nanos, true⟩ (if_pos hutc))
  · intro ht
    refine ⟨fun _ h => nanos_of_requireUTC h ht, ?_, ?_, ?_, ?_, ?_, ?_, ?_, ?_⟩
    · rintro agent rfl h
      obtain ⟨created, updated, hcreated, hupdated, hordered⟩ := requireUTC_of_agent h
      refine ⟨not_zero_of_representable ht, fun hrepresentable => ?_⟩
      rw [nanos_of_requireUTC hcreated ht, nanos_of_requireUTC hupdated hrepresentable] at hordered
      exact decide_eq_false (not_lt.mpr hordered)
    · rintro run command result rfl h
      obtain ⟨normalized, hnormalized, hordered⟩ := requireUTC_of_transition h
      rw [nanos_of_requireUTC hnormalized ht] at hordered
      exact ⟨not_zero_of_representable ht, decide_eq_false (not_lt.mpr hordered)⟩
    · rintro dep usage result rfl h
      obtain ⟨_, _, _, _, _, _, _, _, hrecorded, _⟩ := validateTrustedUsage_spec h
      exact readAs_of_requireUTC hrecorded ht
    · rintro candidate result rfl h
      exact readAs_of_requireUTC (validateResourceExtension_createdAt h) ht
    · rintro candidate result rfl h
      exact readAs_of_requireUTC (requireUTC_of_settlement h) ht
    · rintro v result rfl h
      obtain ⟨heffective, _, hexpiry⟩ := requireUTC_of_revocation h
      refine ⟨readAs_of_requireUTC heffective ht, fun expiry hmem hrepresentable => ?_⟩
      obtain ⟨expiresAt, hexpires, hafter⟩ := hexpiry expiry hmem
      rw [Time.after, decide_eq_true_eq] at hafter ⊢
      rwa [nanos_of_requireUTC heffective ht, nanos_of_requireUTC hexpires hrepresentable] at hafter
    · rintro v result rfl h
      exact readAs_of_requireUTC (requireUTC_of_revocation h).2.1 ht
    · rintro v result rfl h
      exact readAs_of_requireUTC (requireUTC_of_revocationLift h) ht

/-- The first second of 2026. -/
theorem requireUTC_preserves_recent : (⟨1767225600000000000, true⟩ : Time).Preserved :=
  (requireUTC_preserves_iff rfl).mpr (by decide)

namespace ClockSample

def zero : Time := ⟨-62135596800000000000, true⟩

def settlement : ResourceSettlement :=
  { id := .ofNat 1, tenantID := .ofNat 2, reservationID := .ofNat 3, actorPrincipalID := .ofNat 4
    policyDecisionID := .ofNat 5, idempotencyKey := "settle-1", terminalRunState := .completed
    finalUsageEventIDs := [], settledAt := zero }

/-- In force from 2300 until 2250. -/
def revocation : Revocation :=
  { id := .ofNat 1, actorPrincipalID := .ofNat 2, tenantID := none, scope := .global, target := "*"
    reasonCode := "incident", detailReference := "", approvalReference := ""
    effectiveAt := ⟨10413792000000000000, true⟩, expiresAt := some ⟨8835955200000000000, true⟩
    createdAt := zero }

end ClockSample

/-- The zero time passes the test for it, and an expiry before the beginning the comparison. -/
theorem zero_time_accepted :
    requireUTC ClockSample.zero = .ok ⟨-6795364578871345152, true⟩ ∧
      validateResourceSettlement ClockSample.settlement =
        .ok { ClockSample.settlement with settledAt := ⟨-6795364578871345152, true⟩ } ∧
      (validateRevocation ClockSample.revocation).toOption.isSome = true ∧
      ClockSample.revocation.expiresAt.all (ClockSample.revocation.effectiveAt.after ·) = true := by
  decide +kernel

end AgentGovernor
