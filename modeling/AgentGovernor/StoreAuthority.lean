import AgentGovernor.StoreTopology

/-! Delegated authority. A child's structural grants come from its own policy resolution, and its deadline
from its own admission. The governor compares three of the grants with the parent's and nothing else, so
whether a child stays within its parent depends on what its admission asks for. -/

namespace AgentGovernor

open Ledger Table Transaction Sample List Option

variable {held : List Lock} {s mid t : Store} {dep : Deployment} {request : Request} {link : Option ID}

/-! ### Authority along a link -/

/-- The deadline is not later than the bound, if there is one. -/
def DeadlineWithin (deadline bound : Option Int) : Prop := ∀ b ∈ bound, ∃ d ∈ deadline, d ≤ b

instance (deadline bound : Option Int) : Decidable (DeadlineWithin deadline bound) :=
  decidable_of_iff ((bound.all fun b => deadline.any (· ≤ b)) = true) (by
    cases bound <;> cases deadline <;> simp [DeadlineWithin])

theorem DeadlineWithin.trans {a b c : Option Int} (h : DeadlineWithin a b) (h' : DeadlineWithin b c) :
    DeadlineWithin a c := by
  intro z hz
  obtain ⟨y, hy, hyz⟩ := h' z hz
  obtain ⟨x, hx, hxy⟩ := h y hy
  exact ⟨x, hx, hxy.trans hyz⟩

/-- The run of an envelope. -/
def runOf (s : Store) (e : ID) : Option Run := (s.envelopes.get e).bind fun row => s.runs.get row.runID

/-- Every structural grant of the child is covered by a grant of the parent, and its run ends no later
than the parent's. -/
structure AuthorityWithin (dep : Deployment) (s : Store) (parent child : ID) : Prop where
  grants : ∀ d g, dep.structural d = true → s.grants.get (child, d) = some g →
    ∃ g', s.grants.get (parent, d) = some g' ∧ g.grantedValue ≤ g'.grantedValue
  deadline : ∀ p ∈ runOf s parent, ∀ c ∈ runOf s child, DeadlineWithin c.deadlineAt p.deadlineAt

/-- The limits that `enforceChildTopology` compares. -/
def comparedLimits : List String := ["active_children", "total_children", "delegation_depth"]

/-- No other structural constraint asks for more than the parent's grant. -/
def ConstraintsWithin (dep : Deployment) (s : Store) (parent : ID) (constraints : Constraints) : Prop :=
  ∀ entry ∈ rootResourceConstraintDimensions, entry.2 ∉ comparedLimits →
    ∀ d ∈ dep.byName entry.2, d.resourceClass = .structural →
      ∀ v ∈ (constraints.lookup entry.1).bind exactNonnegativeInt64,
        ((s.grants.get (parent, d.id)).any fun g => v ≤ g.grantedValue) = true

instance (dep : Deployment) (s : Store) (parent : ID) (constraints : Constraints) :
    Decidable (ConstraintsWithin dep s parent constraints) :=
  inferInstanceAs (Decidable (∀ entry ∈ rootResourceConstraintDimensions, _))

/-- A child admission that asks for no more than its parent has. -/
def AdmissionWithin (dep : Deployment) (s : Store) (parent : ID) (admission : RunAdmission)
    (resolution : RunVersionResolution) : Prop :=
  ConstraintsWithin dep s parent (resolution.resolvedConstraints.getD []) ∧
    DeadlineWithin (admission.deadlineAt.map Time.stored) ((runOf s parent).bind (·.deadlineAt))

instance (dep : Deployment) (s : Store) (parent : ID) (admission : RunAdmission)
    (resolution : RunVersionResolution) :
    Decidable (AdmissionWithin dep s parent admission resolution) :=
  inferInstanceAs (Decidable (_ ∧ _))

section Delegate

variable {admission : RunAdmission} {resolution : RunVersionResolution} {evidence : RunAdmissionEvidence}
  {grants : List RootResourceGrant} {requested reservation : ResourceReservation} {row : Reservation}

theorem Delegates.parent_ne (h : Delegates dep admission grants reservation row s mid t) :
    reservation.parentEnvelopeID ≠ admission.envelopeID := by
  intro hsame
  obtain ⟨parent, hparent⟩ := h.admits.parent_exists _ rfl
  rw [hsame, h.admits.envelope_none] at hparent
  cases hparent

variable {e : ID} {g : Grant}

/-- The commit issues nothing to another envelope. -/
theorem Delegates.other_grant (h : Delegates dep admission grants reservation row s mid t) {d : ID}
    (hne : e ≠ admission.envelopeID) (hg : t.grants.get (e, d) = some g) :
    s.grants.get (e, d) = some g := by
  rcases h.reserves.posts.grant_origin hg with hmid | hissue
  · rcases h.admits.posts.grant_origin hmid with hold | hissue
    · exact hold
    · obtain ⟨x, _, hx⟩ := mem_filterMap.mp hissue
      obtain ⟨_, _, heq⟩ := map_eq_some_iff.mp hx
      simp only [Entry.issue.injEq] at heq
      exact absurd heq.1.symm hne
  · obtain ⟨i, _, hentry⟩ := mem_flatMap.mp hissue
    simp only [mem_cons, not_mem_nil, or_false, reduceCtorEq, false_or,
      Entry.issue.injEq] at hentry
    rw [h.reserves.columns.2.1, h.child_envelope] at hentry
    exact absurd hentry.1 hne

theorem Delegates.grant_kept (h : Delegates dep admission grants reservation row s mid t) {k : ID × ID}
    (hg : s.grants.get k = some g) : t.grants.get k = some g :=
  h.reserves.posts.grant_kept (h.admits.posts.grant_kept hg)

theorem Delegates.envelopes_eq (h : Delegates dep admission grants reservation row s mid t) :
    t.envelopes = s.envelopes.put
      ⟨admission.envelopeID, admission.runID, some reservation.parentEnvelopeID, 1⟩ :=
  h.reserves.evidenced.envelopes.trans h.admits.store_eq.envelopes

theorem Delegates.runs_eq (h : Delegates dep admission grants reservation row s mid t) :
    t.runs = s.runs.put (admittedRun admission) :=
  h.reserves.evidenced.runs.trans h.admits.store_eq.runs

theorem Delegates.runOf_child (h : Delegates dep admission grants reservation row s mid t) :
    runOf t admission.envelopeID = some (admittedRun admission) := by
  have hget := get_put_self s.envelopes
    ⟨admission.envelopeID, admission.runID, some reservation.parentEnvelopeID, 1⟩
  rw [runOf, h.envelopes_eq, h.runs_eq, hget]
  exact get_put_self s.runs (admittedRun admission)

/-- An envelope that was there has its run as it was. -/
theorem Delegates.runOf_eq (h : Delegates dep admission grants reservation row s mid t)
    (hplaced : Placed s) {envelope : Envelope} (he : s.envelopes.get e = some envelope) :
    runOf t e = runOf s e := by
  have hne : e ≠ admission.envelopeID := by
    rintro rfl
    rw [h.admits.envelope_none] at he
    cases he
  obtain ⟨run, hrun⟩ := hplaced.run e envelope he
  have hrunID : envelope.runID ≠ admission.runID := by
    intro hsame
    rw [hsame, h.admits.run_fresh] at hrun
    cases hrun
  have hget := get_put_of_ne s.envelopes (k := e)
    (r := ⟨admission.envelopeID, admission.runID, some reservation.parentEnvelopeID, 1⟩) hne
  rw [runOf, runOf, h.envelopes_eq, h.runs_eq, hget, he]
  exact get_put_of_ne s.runs hrunID

variable {d : ResourceDimension} {v : Int}

/-- The grant of a constraint of the child. -/
theorem Delegates.constraint_grant (h : Delegates dep admission grants reservation row s mid t)
    (hroot : rootResourceGrants (resolution.resolvedConstraints.getD []) = .ok grants)
    {entry : String × String} (hentry : entry ∈ rootResourceConstraintDimensions)
    (hd : dep.byName entry.2 = some d)
    (hv : ((resolution.resolvedConstraints.getD []).lookup entry.1).bind exactNonnegativeInt64 = some v) :
    ∃ g, t.grants.get (admission.envelopeID, d.id) = some g ∧ g.grantedValue = v := by
  have hgrant : ⟨entry.2, v⟩ ∈ grants :=
    (mem_rootResourceGrants hroot _ _).mpr ⟨entry, hentry, rfl, hv⟩
  have hissue : .issue admission.envelopeID d.id v ∈ rootEntries dep admission.envelopeID grants :=
    mem_filterMap.mpr ⟨_, hgrant, by rw [hd]; rfl⟩
  obtain ⟨g, hg, hvalue⟩ := h.admits.posts.issued_value hissue
  exact ⟨g, h.reserves.posts.grant_kept hg, hvalue⟩

/-- A structural grant of the child is the value of one of its constraints. -/
theorem Delegates.structural_origin (h : Delegates dep admission grants reservation row s mid t)
    (hroot : rootResourceGrants (resolution.resolvedConstraints.getD []) = .ok grants)
    (hplaced : Placed s) {d : ID} (hd : dep.structural d = true)
    (hg : t.grants.get (admission.envelopeID, d) = some g) :
    ∃ entry ∈ rootResourceConstraintDimensions, ∃ dimension, dep.byName entry.2 = some dimension ∧
      dimension.id = d ∧ dimension.resourceClass = .structural ∧
      ((resolution.resolvedConstraints.getD []).lookup entry.1).bind exactNonnegativeInt64 =
        some g.grantedValue := by
  rcases h.grant_origin hplaced hg with hissue | ⟨i, hi, rfl, _⟩
  · obtain ⟨⟨name, v⟩, hgrant, hx⟩ := mem_filterMap.mp hissue
    obtain ⟨dimension, hdimension, heq⟩ := map_eq_some_iff.mp hx
    simp only [Entry.issue.injEq, true_and] at heq
    obtain ⟨rfl, rfl⟩ := heq
    obtain ⟨entry, hentry, rfl, hvalue⟩ := (mem_rootResourceGrants hroot _ _).mp hgrant
    refine ⟨entry, hentry, dimension, hdimension, rfl, ?_, hvalue⟩
    simpa [Deployment.structural, (Deployment.byName_spec hdimension).2] using hd
  · have hconsumable := h.reserves.items_consumable i hi
    rw [← Deployment.consumable, not_consumable_of_structural hd] at hconsumable
    cases hconsumable

variable {name : String}

/-- One of the compared limits. -/
theorem LimitsNarrow.compared {parent child : ID} (h : LimitsNarrow dep s parent child)
    (hname : name ∈ comparedLimits) (hv : structuralLimit dep s child name = some v) :
    ∃ bound, structuralLimit dep s parent name = some bound ∧ v ≤ bound := by
  obtain ⟨maximum, limits, _, hmaximum, hlimits, hactive, htotal, hdepth, _, _⟩ := h
  obtain ⟨hmaxActive, hmaxTotal, hmaxDepth⟩ := structuralLimits_spec.mp hmaximum
  obtain ⟨hlimActive, hlimTotal, hlimDepth⟩ := structuralLimits_spec.mp hlimits
  simp only [comparedLimits, mem_cons, not_mem_nil, or_false] at hname
  rcases hname with rfl | rfl | rfl
  · rw [hlimActive] at hv
    cases hv
    exact ⟨_, hmaxActive, hactive⟩
  · rw [hlimTotal] at hv
    cases hv
    exact ⟨_, hmaxTotal, htotal⟩
  · rw [hlimDepth] at hv
    cases hv
    exact ⟨_, hmaxDepth, hdepth⟩

theorem structuralLimit_of_grant
    (hd : dep.byName name = some d) (hg : s.grants.get (e, d.id) = some g) :
    structuralLimit dep s e name = some g.grantedValue := by
  simp [structuralLimit, hd, hg]

theorem grant_of_structuralLimit
    (hd : dep.byName name = some d) (h : structuralLimit dep s e name = some v) :
    ∃ g, s.grants.get (e, d.id) = some g ∧ g.grantedValue = v := by
  simpa [structuralLimit, hd] using h

theorem Delegates.authorityWithin_iff (h : Delegates dep admission grants reservation row s mid t)
    (hroot : rootResourceGrants (resolution.resolvedConstraints.getD []) = .ok grants)
    (hplaced : Placed s) :
    AuthorityWithin dep t reservation.parentEnvelopeID admission.envelopeID ↔
      AdmissionWithin dep s reservation.parentEnvelopeID admission resolution := by
  obtain ⟨parent, hparent⟩ := h.admits.parent_exists _ rfl
  have hdeadline : (∀ p ∈ runOf t reservation.parentEnvelopeID, ∀ c ∈ runOf t admission.envelopeID,
      DeadlineWithin c.deadlineAt p.deadlineAt) ↔ DeadlineWithin (admission.deadlineAt.map Time.stored)
        ((runOf s reservation.parentEnvelopeID).bind (·.deadlineAt)) := by
    rw [h.runOf_child, h.runOf_eq hplaced hparent]
    cases runOf s reservation.parentEnvelopeID with
    | none => simp [DeadlineWithin]
    | some p => simp [admittedRun]
  constructor
  · intro hwithin
    refine ⟨fun entry hentry _ d hd hclass v hv => ?_, hdeadline.mp hwithin.deadline⟩
    obtain ⟨g, hg, rfl⟩ := h.constraint_grant hroot hentry hd hv
    have hstructural : dep.structural d.id = true := by
      simp [Deployment.structural, (Deployment.byName_spec hd).2, hclass]
    obtain ⟨g', hg', hle⟩ := hwithin.grants d.id g hstructural hg
    rw [h.other_grant h.parent_ne hg', any_some]
    exact decide_eq_true hle
  · rintro ⟨hconstraints, hbound⟩
    refine ⟨fun d g hd hg => ?_, hdeadline.mpr hbound⟩
    obtain ⟨entry, hentry, dimension, hdimension, rfl, hclass, hvalue⟩ :=
      h.structural_origin hroot hplaced hd hg
    by_cases hcompared : entry.2 ∈ comparedLimits
    · -- The topology check has compared this one.
      have hreserves : Store.Keeps [] mid t := h.reserves.keeps
      have hnarrow : LimitsNarrow dep t reservation.parentEnvelopeID admission.envelopeID :=
        h.child_envelope ▸ h.reserves.topology.limitsNarrow.kept hreserves
      obtain ⟨bound, hlimit, hle⟩ :=
        hnarrow.compared hcompared (structuralLimit_of_grant hdimension hg)
      obtain ⟨g', hg', rfl⟩ := grant_of_structuralLimit hdimension hlimit
      exact ⟨g', hg', hle⟩
    · obtain ⟨g', hg', hle⟩ := (Option.any_eq_true _ _).mp
        (hconstraints entry hentry hcompared dimension hdimension hclass _ hvalue)
      exact ⟨g', h.grant_kept hg', of_decide_eq_true hle⟩

end Delegate

/-! ### Authority along a run -/

/-- An extension that does not move the deadline of a child past its parent's. -/
def ExtensionWithin (s : Store) (candidate : ResourceExtension) : Prop :=
  ∀ e ∈ s.envelopes.rows, e.runID = candidate.runID → ∀ p ∈ e.parentEnvelopeID,
    ∀ run ∈ s.runs.get e.runID,
      DeadlineWithin (run.deadlineAt.map (· + candidate.deadlineExtensionSeconds * 1000000))
        ((runOf s p).bind (·.deadlineAt))

instance (s : Store) (candidate : ResourceExtension) : Decidable (ExtensionWithin s candidate) :=
  inferInstanceAs (Decidable (∀ e ∈ s.envelopes.rows, _))

/-- The requests that keep children within their parents: admissions that ask for no more than the
parent has, and extensions, unless they are replayed, that leave the parent's deadline the later one. -/
def Request.KeepsAuthority (dep : Deployment) (s : Store) : Request → Prop
  | .admitChildRun admission resolution _ requested =>
    AdmissionWithin dep s requested.parentEnvelopeID admission resolution
  | .extendResources candidate _ =>
    (∀ x ∈ s.extensions.rows, ¬(x.actorPrincipalID = candidate.actorPrincipalID ∧
      x.idempotencyKey = candidate.idempotencyKey)) → ExtensionWithin s candidate
  | _ => True

instance (dep : Deployment) (s : Store) (request : Request) :
    Decidable (request.KeepsAuthority dep s) := by
  unfold Request.KeepsAuthority
  split <;> infer_instance

/-- Every linked envelope is within its parent. -/
def Obedient (dep : Deployment) (s : Store) : Prop :=
  ∀ p c, ParentOf s p c → AuthorityWithin dep s p c

variable {c : ID}

/-- A move that links nothing has its links from before. -/
theorem Moves.parentOf (h : Moves dep request held s t none) {p : ID} (hlink : ParentOf t p c) :
    ParentOf s p c := by
  obtain ⟨e, he, hparent⟩ := hlink
  rcases h.envelope_origin he with ⟨e₀, he₀, hkeep⟩ | ⟨hnone, _⟩
  · exact ⟨e₀, he₀, hkeep.parentEnvelopeID ▸ hparent⟩
  · rw [hparent] at hnone
    cases hnone

/-- Runs keep their deadlines, except the one of an extension. -/
theorem Moves.deadline (h : Moves dep request held s t link) :
    (∀ id r, s.runs.get id = some r → ∃ r', t.runs.get id = some r' ∧ r'.deadlineAt = r.deadlineAt) ∨
      ∃ candidate evidence extension row e run run',
        request = .extendResources candidate evidence ∧
        validateResourceExtension candidate = .ok extension ∧
        Extends dep extension row e run run' s t := by
  have hwork : RunsWork s.runs t.runs → ∀ id r, s.runs.get id = some r →
      ∃ r', t.runs.get id = some r' ∧ r'.deadlineAt = r.deadlineAt := by
    intro hwork id r hr
    obtain ⟨r', hr', _, hdeadline⟩ := hwork.get hr
    exact ⟨r', hr', hdeadline⟩
  cases h with
  | idle h => exact Or.inl (hwork h.runs)
  | meter _ _ _ _ _ h => exact Or.inl (hwork h.runs)
  | close _ _ _ h _ => exact Or.inl (hwork h.runs)
  | reserve _ _ _ _ _ h => exact Or.inl (hwork (Or.inl h.evidenced.runs))
  | admitRun admission _ _ _ _ _ _ h =>
    refine Or.inl fun id r hr => ⟨r, ?_, rfl⟩
    rw [h.store_eq.runs, get_put_of_ne]
    · exact hr
    · rintro rfl
      rw [show (admittedRun admission).id = admission.runID from rfl, h.run_fresh] at hr
      cases hr
  | extend candidate extension row e run run' hrequest hvalid h =>
    obtain ⟨evidence, rfl⟩ := hrequest
    exact Or.inr ⟨candidate, evidence, extension, row, e, run, run', rfl, hvalid, h⟩

/-- An extension moves a deadline by its seconds, and only to a later time. -/
theorem extendedDeadline_spec {deadline deadline' : Option Int} {seconds : Int}
    (h : extendedDeadline deadline seconds = .ok deadline') :
    (deadline' = deadline ∨ deadline' = deadline.map (· + seconds * 1000000)) ∧
      DeadlineWithin deadline deadline' := by
  unfold extendedDeadline at h
  by_cases hseconds : 0 < seconds
  · rw [if_pos hseconds] at h
    cases deadline with
    | none => cases h
    | some d =>
      dsimp only at h
      split_ifs at h with _ hlater
      cases h
      refine ⟨Or.inr rfl, fun b hb => ⟨d, rfl, ?_⟩⟩
      cases hb
      omega
  · rw [if_neg hseconds] at h
    cases h
    exact ⟨Or.inl rfl, fun b hb => ⟨b, hb, le_refl b⟩⟩

variable {e : ID} {run : Run}

theorem runOf_eq_some :
    runOf s e = some run ↔ ∃ row, s.envelopes.get e = some row ∧ s.runs.get row.runID = some run :=
  bind_eq_some_iff

variable {run' : Run}

/-- The run of an envelope that was there comes from the run that it had. -/
theorem Moves.runOf (h : Moves dep request held s t link) (hplaced : Placed s) {row : Envelope}
    (he : s.envelopes.get e = some row) (hrun' : AgentGovernor.runOf t e = some run') :
    ∃ run, s.runs.get row.runID = some run ∧ t.runs.get row.runID = some run' := by
  obtain ⟨row', hrow', hget'⟩ := runOf_eq_some.mp hrun'
  obtain ⟨row'', hrow'', hkeep⟩ := h.keeps.envelopes e row he
  rw [hrow'] at hrow''
  cases hrow''
  obtain ⟨run, hrun⟩ := hplaced.run e row he
  exact ⟨run, hrun, hkeep.runID ▸ hget'⟩

/-- An extension that keeps within the parent leaves every link as it should be. -/
theorem Extends.deadlineWithin {candidate extension : ResourceExtension} {row : Extension} {e : Envelope}
    (h : Extends dep extension row e run run' s t)
    (hvalid : validateResourceExtension candidate = .ok extension)
    (hwithin : ExtensionWithin s candidate) {p c : Envelope} {parent child parent' child' : Run}
    (hc : s.envelopes.get c.id = some c) (hlink : c.parentEnvelopeID = some p.id)
    (hp : s.envelopes.get p.id = some p)
    (hparent : s.runs.get p.runID = some parent) (hchild : s.runs.get c.runID = some child)
    (hparent' : t.runs.get p.runID = some parent') (hchild' : t.runs.get c.runID = some child')
    (hbefore : DeadlineWithin child.deadlineAt parent.deadlineAt) :
    DeadlineWithin child'.deadlineAt parent'.deadlineAt := by
  obtain ⟨created, _, rfl⟩ := validateResourceExtension_eq hvalid
  obtain ⟨hmoved, hlater⟩ := extendedDeadline_spec h.deadline
  -- The run of an envelope is the extended one or as it was.
  have hruns : ∀ {id : ID} {r r' : Run}, s.runs.get id = some r → t.runs.get id = some r' →
      (id = candidate.runID ∧ r = run ∧ r' = run') ∨ r' = r := by
    intro id r r' hr hr'
    rw [h.store_eq.runs, get_put] at hr'
    split_ifs at hr' with hid
    · have hid' : id = candidate.runID := hid.trans (h.run_kept.1.trans (key_of_get h.run_get))
      rw [hid', h.run_get] at hr
      cases hr
      cases hr'
      exact Or.inl ⟨hid', rfl, rfl⟩
    · rw [hr] at hr'
      cases hr'
      exact Or.inr rfl
  have hchildWithin : DeadlineWithin child'.deadlineAt parent.deadlineAt := by
    rcases hruns hchild hchild' with ⟨hid, rfl, rfl⟩ | rfl
    · rcases hmoved with hsame | hmoved
      · rw [hsame]
        exact hbefore
      · have hbound := hwithin c (mem_of_get hc) hid p.id hlink child hchild
        rw [AgentGovernor.runOf, hp, bind_some, hparent, bind_some] at hbound
        rw [hmoved]
        exact hbound
    · exact hbefore
  rcases hruns hparent hparent' with ⟨_, rfl, rfl⟩ | rfl
  · exact hchildWithin.trans hlater
  · exact hchildWithin

theorem Obedient.moves (hs : Obedient dep s) (h : Moves dep request held s t none) (hsound : Sound dep s)
    (hkeeps : request.KeepsAuthority dep s) : Obedient dep t := by
  intro p c hlink
  have hwithin := hs p c (h.parentOf hlink)
  obtain ⟨child, hchild, hparent⟩ := h.parentOf hlink
  obtain ⟨parent, hparentRow⟩ := hsound.placed.parent c child p hchild hparent
  refine ⟨fun d g hd hg => ?_, fun rp hrp rc hrc => ?_⟩
  · obtain ⟨g', hg', hle⟩ := hwithin.grants d g hd
      (h.structural_grant (hsound.moves h).delegated hchild hd hg)
    obtain ⟨_, hkept, rfl⟩ := h.keeps.grants _ g' hg'
    exact ⟨g', hkept, hle⟩
  · obtain ⟨rp₀, hrp₀, hrpGet⟩ := h.runOf hsound.placed hparentRow hrp
    obtain ⟨rc₀, hrc₀, hrcGet⟩ := h.runOf hsound.placed hchild hrc
    have hold : DeadlineWithin rc₀.deadlineAt rp₀.deadlineAt :=
      hwithin.deadline rp₀ (runOf_eq_some.mpr ⟨parent, hparentRow, hrp₀⟩) rc₀
        (runOf_eq_some.mpr ⟨child, hchild, hrc₀⟩)
    rcases h.deadline with hsame | ⟨candidate, evidence, extension, row, e, run, run', rfl, hvalid,
      hextends⟩
    · obtain ⟨rp', hrp', hpDeadline⟩ := hsame _ _ hrp₀
      obtain ⟨rc', hrc', hcDeadline⟩ := hsame _ _ hrc₀
      rw [hrpGet] at hrp'
      rw [hrcGet] at hrc'
      cases hrp'
      cases hrc'
      rw [hpDeadline, hcDeadline]
      exact hold
    · have hextension : ExtensionWithin s candidate := by
        obtain ⟨created, _, hextension⟩ := validateResourceExtension_eq hvalid
        refine hkeeps fun x hx => ?_
        have hfresh := (hextends.fresh x hx).2
        rw [hextension] at hfresh
        exact hfresh
      have hchildID : child.id = c := key_of_get hchild
      have hparentID : parent.id = p := key_of_get hparentRow
      exact hextends.deadlineWithin hvalid hextension (p := parent) (c := child) (hchildID ▸ hchild)
        (hparentID ▸ hparent) (hparentID ▸ hparentRow) hrp₀ hrc₀ hrpGet hrcGet hold

theorem Obedient.transition (hs : Obedient dep s) (h : Transition dep request held s t)
    (hsound : Sound dep s) (hkeeps : request.KeepsAuthority dep s) : Obedient dep t := by
  cases h with
  | single h => exact hs.moves h hsound hkeeps
  | delegate admission resolution evidence grants requested reservation row mid hrequest hgrants hvalid
      h =>
    subst hrequest
    have hparentID := (validateAndSort_spec hvalid).2.2.1
    have hadmission : AdmissionWithin dep s reservation.parentEnvelopeID admission resolution :=
      hparentID ▸ hkeeps
    rintro p c ⟨e, he, hparent⟩
    rw [h.envelopes_eq, get_put] at he
    split_ifs at he with hid
    · cases he
      cases hparent
      rw [hid]
      exact (h.authorityWithin_iff (admissionGrants_spec hgrants) hsound.placed).mpr hadmission
    · -- A link from before is between envelopes that the commit does not touch.
      obtain ⟨parent, hparentRow⟩ := hsound.placed.parent c e p he hparent
      have hwithin := hs p c ⟨e, he, hparent⟩
      refine ⟨fun d g hd hg => ?_, ?_⟩
      · obtain ⟨g', hg', hle⟩ := hwithin.grants d g hd (h.other_grant hid hg)
        exact ⟨g', h.grant_kept hg', hle⟩
      · rw [h.runOf_eq hsound.placed hparentRow, h.runOf_eq hsound.placed he]
        exact hwithin.deadline

/-- The authority of a descendant is within that of every ancestor. -/
theorem Obedient.ancestors (hs : Obedient dep s) (hplaced : Placed s) {a : ID}
    (hpath : Relation.TransGen (ParentOf s) a c) : AuthorityWithin dep s a c := by
  induction hpath with
  | single hlink => exact hs _ _ hlink
  | @tail b c hpath hlink ih =>
    have hlast := hs _ _ hlink
    refine ⟨fun d g hd hg => ?_, fun ra hra rc hrc => ?_⟩
    · obtain ⟨g', hg', hle⟩ := hlast.grants d g hd hg
      obtain ⟨g'', hg'', hle'⟩ := ih.grants d g' hd hg'
      exact ⟨g'', hg'', hle.trans hle'⟩
    · obtain ⟨row, hrow⟩ := hplaced.parentOf_exists hlink
      obtain ⟨rb, hrb⟩ := hplaced.run b row hrow
      have hmiddle : runOf s b = some rb := runOf_eq_some.mpr ⟨row, hrow, hrb⟩
      exact (hlast.deadline rb hmiddle rc hrc).trans (ih.deadline ra hra rb hmiddle)

theorem Reachable.obedient {governor : Governor} (h : Reachable dep governor)
    (hkeeps : ∀ c ∈ governor.log, c.request.KeepsAuthority dep c.before) :
    Sound dep governor.committed ∧ Obedient dep governor.committed := by
  refine (h.history.invariant_where (P := fun s => Sound dep s ∧ Obedient dep s)
    (C := fun c => c.request.KeepsAuthority dep c.before) ⟨Sound.empty, ?_⟩ ?_ hkeeps).1
  · rintro p c ⟨e, he, _⟩
    cases he
  · intro request response s t hcommit hkeeps ⟨hsound, hs⟩
    obtain ⟨held, htransition⟩ := commits_transition hcommit
    refine ⟨?_, hs.transition htransition hsound hkeeps⟩
    exact htransition.relates (R := fun s t => Sound dep s → Sound dep t)
      (fun _ _ _ hmove hs => hs.moves hmove) (fun _ _ _ hst htu hs => htu (hst hs)) hsound

theorem commits_authorityWithin_iff {admission : RunAdmission} {resolution : RunVersionResolution}
    {evidence : RunAdmissionEvidence} {requested : ResourceReservation} {response : Response}
    (h : storeEngine.Commits (program dep) (.admitChildRun admission resolution evidence requested)
      response s t) (hplaced : Placed s) :
    AuthorityWithin dep t requested.parentEnvelopeID requested.childEnvelopeID ↔
      AdmissionWithin dep s requested.parentEnvelopeID admission resolution := by
  obtain ⟨grants, reservation, row, mid, hgrants, hvalid, hdelegates⟩ := commits_admitChildRun h
  obtain ⟨_, _, hparentID, hchildID, _⟩ := validateAndSort_spec hvalid
  rw [← hparentID, ← hchildID, hdelegates.child_envelope]
  exact hdelegates.authorityWithin_iff (admissionGrants_spec hgrants) hplaced

/-- A child admission leaves the child within its parent exactly when it asks for no more than the
parent has, and after commits that all keep to that every descendant is within every ancestor. -/
theorem authority_narrows {governor : Governor} (h : Reachable dep governor) :
    (∀ c ∈ governor.log, ∀ admission resolution evidence requested,
      c.request = .admitChildRun admission resolution evidence requested →
        (AuthorityWithin dep c.after requested.parentEnvelopeID requested.childEnvelopeID ↔
          AdmissionWithin dep c.before requested.parentEnvelopeID admission resolution)) ∧
    ((∀ c ∈ governor.log, c.request.KeepsAuthority dep c.before) →
      ∀ a c, Relation.TransGen (ParentOf governor.committed) a c →
        AuthorityWithin dep governor.committed a c) := by
  refine ⟨fun c hc admission resolution evidence requested hrequest => ?_, fun hkeeps a c hpath => ?_⟩
  · obtain ⟨hbefore, _, hcommit⟩ := h.sound.2 c hc
    rw [hrequest] at hcommit
    exact commits_authorityWithin_iff hcommit hbefore.placed
  · obtain ⟨hsound, hobedient⟩ := h.obedient hkeeps
    exact hobedient.ancestors hsound.placed hpath

theorem Sample.story_keepsAuthority : ∀ c ∈ (after story).log,
    c.request.KeepsAuthority deployment c.before := by
  decide +kernel

theorem authority_narrows_story :
    AuthorityWithin deployment (after story).committed (.ofNat 101) (.ofNat 301) :=
  (authority_narrows (reachable story)).2 story_keepsAuthority _ _
    (.single story_child.1)

/-- The root may make five tool calls a minute, and its child asks for fifty. -/
def Sample.expanded : List Request :=
  provision ++ [admitRoot 100 (("max_tool_calls", .int 10) :: limits),
    admitChild 200 100 (("max_tool_calls_per_minute", .int 50) :: limits) 2]

theorem authority_expanded : ∃ governor c admission resolution evidence requested,
    Reachable deployment governor ∧ c ∈ governor.log ∧
      c.request = .admitChildRun admission resolution evidence requested ∧
        ¬AuthorityWithin deployment c.after requested.parentEnvelopeID
          requested.childEnvelopeID := by
  have hfound : ((after expanded).log.any fun c => match c.request with
      | .admitChildRun admission resolution _ requested => !decide (AdmissionWithin deployment
          c.before requested.parentEnvelopeID admission resolution)
      | _ => false) = true := by
    decide +kernel
  obtain ⟨c, hc, hmatch⟩ := List.any_eq_true.mp hfound
  split at hmatch
  · rename_i admission resolution evidence requested hrequest
    refine ⟨_, c, admission, resolution, evidence, requested, reachable expanded, hc,
      hrequest, fun hwithin => ?_⟩
    obtain ⟨hbefore, _, hcommit⟩ := (reachable expanded).sound.2 c hc
    rw [hrequest] at hcommit
    have hadmission := (commits_authorityWithin_iff hcommit hbefore.placed).mp hwithin
    simp [hadmission] at hmatch
  · cases hmatch

end AgentGovernor
