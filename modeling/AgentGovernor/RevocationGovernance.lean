import AgentGovernor.RevocationLog

/-! Four eyes on global revocations. Approvals of global changes can be requested, decided and consumed,
but a change of a revocation carries its approval only as a text, and no change consumes one. -/

namespace AgentGovernor

open Ledger Transaction RevocationSample

variable {a : RevocationSystem × Int} {s t : RevocationStore}

/-- The scope of the revocation that the call is about: of the one to be created, or of the stored one that
is to be lifted. -/
def RevocationCall.scopeIn (call : RevocationCall) (s : RevocationStore) : Option RevocationScope :=
  match call.action with
  | .create v => some v.scope
  | .lift l => (s.revocations.get l.revocationID).map RevocationRow.scope

/-- The approval is one of a global change, was granted before it expired by another principal than the one
that makes the change, has not expired when the change is made, and is bound to the change in the sense of
`bound`. -/
structure Approves (bound : ApprovalRequest → RevocationCall → Prop) (call : RevocationCall)
    (approval : ApprovalRequest) (outcome : ApprovalOutcome) : Prop where
  decision : outcome.approvalID = approval.id
  action : approval.action = .globalRevocationChange
  approved : outcome.approved = true
  independent : outcome.approverPrincipalID ≠ call.action.actor
  decided : outcome.decidedAt < approval.expiresAt
  unexpired : call.action.changedAt.stored < approval.expiresAt
  bound : bound approval call

/-- The transaction from `s` to `t` consumes an approval of its change. -/
def ConsumesApproval (bound : ApprovalRequest → RevocationCall → Prop) (call : RevocationCall)
    (s t : RevocationStore) : Prop :=
  ∃ approval ∈ t.approvals.rows, ∃ outcome ∈ t.outcomes.rows, Approves bound call approval outcome ∧
    s.consumptions.get approval.id = none ∧ (t.consumptions.get approval.id).isSome = true

/-- No change of a revocation consumes an approval, of whatever kind. -/
theorem Changes.not_consumesApproval {call : RevocationCall} {v : Revocation} {epochs : EpochVector}
    (h : Changes call v epochs s t) (bound : ApprovalRequest → RevocationCall → Prop) :
    ¬ConsumesApproval bound call s t := by
  rintro ⟨approval, _, outcome, _, _, hbefore, hafter⟩
  rw [h.consumptions, hbefore] at hafter
  cases hafter

theorem RevocationReachable.changes (h : RevocationReachable a) {c : RevocationCommit} (hc : c ∈ a.1.log)
    {call : RevocationCall} (hcall : c.request.call = some call) :
    ∃ v epochs, Changes call v epochs c.before c.after := by
  obtain ⟨held, hrevokes⟩ := revokes_of_commits (h.history.commits hc)
  cases hrevokes with
  | change call' v epochs hrequest _ _ _ hchanges =>
    rw [hcall] at hrequest
    cases hrequest
    exact ⟨v, epochs, hchanges⟩
  | other hrequest =>
    rw [hcall] at hrequest
    cases hrequest

/-- A committed change of a revocation is under four eyes, if it has to be, just when the revocation is not
a global one. This is so for any way to bind an approval to a change. -/
theorem global_changes_approved (h : RevocationReachable a) {c : RevocationCommit} (hc : c ∈ a.1.log)
    {call : RevocationCall} (hcall : c.request.call = some call)
    (bound : ApprovalRequest → RevocationCall → Prop) :
    (call.scopeIn c.before = some .global → ConsumesApproval bound call c.before c.after) ↔
      call.scopeIn c.before ≠ some .global := by
  obtain ⟨v, epochs, hchanges⟩ := h.changes hc hcall
  constructor
  · intro hconsumes hglobal
    exact hchanges.not_consumesApproval bound (hconsumes hglobal)
  · intro hscope hglobal
    exact absurd hglobal hscope

namespace RevocationSample

/-- What a principal does alone: it revokes every tenant, or one agent. -/
def createAlone (owner : Option ID) (scope : RevocationScope) (target : String) : List RevocationRequest :=
  [.create tenant (revocation 1 owner scope target 10 10) (evidence 1) 1 tenant]

def callAlone (owner : Option ID) (scope : RevocationScope) (target : String) : RevocationCall :=
  ⟨tenant, .create (revocation 1 owner scope target 10 10), evidence 1, 1⟩

theorem createAlone_global :
    ((after (createAlone none .global "all")).1.log.map fun c => c.request.call) =
      [some (callAlone none .global "all")] := by
  decide +kernel

theorem createAlone_principal :
    ((after (createAlone (some tenant) .principalID "principal-1")).1.log.map fun c => c.request.call) =
      [some (callAlone (some tenant) .principalID "principal-1")] := by
  decide +kernel

theorem exists_of_map_eq {α β : Type} {f : α → β} {l : List α} {b : β} (h : l.map f = [b]) :
    ∃ x ∈ l, f x = b := by
  have hmem : b ∈ l.map f := by rw [h]; exact List.mem_singleton_self b
  exact List.mem_map.mp hmem

end RevocationSample

theorem global_changes_approved_principal :
    ∃ c ∈ (after (createAlone (some tenant) .principalID
        "principal-1")).1.log,
      (callAlone (some tenant) .principalID "principal-1").scopeIn c.before =
          some .global →
        ConsumesApproval (fun _ _ => True)
          (callAlone (some tenant) .principalID "principal-1") c.before
          c.after := by
  obtain ⟨c, hc, hcall⟩ := exists_of_map_eq createAlone_principal
  exact ⟨c, hc, (global_changes_approved (reachable _) hc hcall _).mpr (by
    show some RevocationScope.principalID ≠ some .global
    decide)⟩

/-- A principal alone creates a global revocation, and no approval exists, let alone is consumed. -/
theorem global_revocation_unapproved :
    ∃ c ∈ (after (createAlone none .global "all")).1.log,
      c.request.call = some (callAlone none .global "all") ∧
      (callAlone none .global "all").scopeIn c.before = some .global ∧
      ∀ bound, ¬ConsumesApproval bound (callAlone none .global "all") c.before c.after := by
  obtain ⟨c, hc, hcall⟩ := exists_of_map_eq createAlone_global
  obtain ⟨v, epochs, hchanges⟩ := (reachable _).changes hc hcall
  exact ⟨c, hc, hcall, rfl, fun bound => hchanges.not_consumesApproval bound⟩

end AgentGovernor
