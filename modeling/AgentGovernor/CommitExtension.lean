import AgentGovernor.CommitRun

/-! What extensions commit. -/

namespace AgentGovernor

open Ledger Table Handle Transaction Engine List

variable {held held' : List Lock} {s t : Store} {dep : Deployment}

/-- What an extension posts: each item is added to availability. -/
def Extension.entries (x : Extension) : List Entry :=
  x.items.map fun i => .move x.envelopeID i.dimensionID i.addedValue 0 0

/-- The item records an addition to a consumable grant of the envelope, on top of what extensions have
added to it before. -/
structure AddsTo (dep : Deployment)
    (grants : Table fun g : Grant => (g.envelopeID, g.dimensionID)) (envelopeID : ID)
    (extended : ID → Int) (addition : ResourceExtensionAmount) (item : ExtensionItem) : Prop where
  dimension : ∃ d, dep.byName addition.name = some d ∧ d.id = item.dimensionID ∧
    d.resourceClass = .consumable
  added : item.addedValue = addition.quantity.amount.coefficient
  grant : ∃ g, grants.get (envelopeID, item.dimensionID) = some g ∧
    item.priorGrantedValue = g.grantedValue + extended item.dimensionID
  sum : item.newGrantedValue = item.priorGrantedValue + item.addedValue

/-- The result that a call returns for an extension, at first and on every replay. -/
def Extension.result (x : Extension) : ResourceExtensionResult :=
  ⟨x.id, x.newEnvelopeVersion, x.newDeadlineAt.map Time.ofStored, x.resumedRun⟩

variable {extension : ResourceExtension} {r : Unit} {x : Extension}

/-- One round: the row grows by the item, and its entry is posted. -/
theorem exec_extendDimension
    {addition : ResourceExtensionAmount}
    (hrow : s.extensions.get extension.id = some x) (hlocked : .envelope x.envelopeID ∈ held)
    (h : storeEngine.Exec (extendDimension dep extension x.envelopeID addition) held s r held' t) :
    ∃ item balances, AddsTo dep s.grants x.envelopeID (extendedValue s x.envelopeID) addition item ∧
      item.dimensionID ∉ x.items.map (·.dimensionID) ∧
      Posts [.move x.envelopeID item.dimensionID item.addedValue 0 0] s.accounts
        ⟨s.grants, balances⟩ ∧
      t = { s with
        extensions := s.extensions.put { x with items := x.items ++ [item] }
        balances := balances } := by
  obtain ⟨_, ⟨seen, hseen, rfl⟩, h₁⟩ := exec_bind_snapshot.mp h
  obtain ⟨target, hspec, h₂⟩ := exec_bind_orThrow.mp h₁
  obtain ⟨⟨hconsumable, _⟩, h₃⟩ := exec_bind_require.mp h₂
  obtain ⟨_, _, _, hitem, hcredit⟩ := exec_bind.mp h₃.checked
  obtain ⟨old, new, hold, hchange, _, rfl⟩ := exec_update.mp hitem
  have hsame : x = old := Option.some.inj (hrow.symm.trans hold)
  subst hsame
  split_ifs at hchange with hdup
  cases hchange
  obtain ⟨b, b', hget, _, _, hkey, havailable, hdirect, hallocated, rfl⟩ :=
    exec_moveBalance (fun _ => rfl) hcredit
  simp only [extensionGrant, Option.bind_eq_bind, Option.bind_eq_some_iff, Option.pure_def,
    Option.some.injEq] at hspec
  obtain ⟨d, hd, g, hg, rfl⟩ := hspec
  obtain ⟨_, hg', rfl⟩ := grants_kept hseen _ g hg
  refine ⟨_, _, ⟨⟨d, hd, ?_, hconsumable⟩, ?_, ⟨g, ?_, ?_⟩, ?_⟩, ?_, ?_, rfl⟩
  · rfl
  · rfl
  · exact hg'
  · dsimp only
    rw [extendedValue_stable hlocked hseen]
  · rfl
  · intro hmem
    apply hdup
    simpa [List.any_eq_true] using hmem
  · exact .move b b' hget hkey havailable hdirect hallocated (.nil _)

/-- The row under construction has added nothing to a dimension that it does not name yet. -/
theorem extendedValue_put {items : List ExtensionItem}
    (hnone : s.extensions.get x.id = none) {d : ID} (hd : d ∉ items.map (·.dimensionID)) (e : ID) :
    extendedValue { s with extensions := s.extensions.put { x with items := items } } e d =
      extendedValue s e d := by
  have hzero : ({ x with items := items } : Extension).added d = 0 := by
    refine sum_eq_zero fun n hn => ?_
    obtain ⟨i, hi, rfl⟩ := List.mem_map.mp hn
    rw [if_neg]
    rintro rfl
    exact hd (List.mem_map_of_mem hi)
  unfold extendedValue
  rw [total_put_of_none _ (by exact hnone), hzero, ite_self, add_zero]

/-- The loop over the additions, from the inserted row on. -/
theorem exec_extendDimensions
    {additions : List ResourceExtensionAmount} (hid : x.id = extension.id)
    (hempty : x.items = []) (hnone : s.extensions.get x.id = none)
    (hlocked : .envelope x.envelopeID ∈ held)
    (h : storeEngine.Exec (.forEach additions (extendDimension dep extension x.envelopeID)) held
      { s with extensions := s.extensions.put x } r held' t) :
    ∃ items balances,
      List.Forall₂ (AddsTo dep s.grants x.envelopeID (extendedValue s x.envelopeID)) additions items ∧
      (items.map (·.dimensionID)).Nodup ∧
      Posts { x with items := items }.entries s.accounts ⟨s.grants, balances⟩ ∧
      t = { s with
        extensions := s.extensions.put { x with items := items }
        balances := balances } := by
  let P : List ResourceExtensionAmount → List Lock → Store → Prop := fun rest held u =>
    .envelope x.envelopeID ∈ held ∧ ∃ done items balances, additions = done ++ rest ∧
      List.Forall₂ (AddsTo dep s.grants x.envelopeID (extendedValue s x.envelopeID)) done items ∧
      (items.map (·.dimensionID)).Nodup ∧
      Posts { x with items := items }.entries s.accounts ⟨s.grants, balances⟩ ∧
      u = { s with
        extensions := s.extensions.put { x with items := items }
        balances := balances }
  have hend : P [] held' t := by
    refine exec_forEach (P := P) ?_ h
      ⟨hlocked, [], [], s.balances, rfl, .nil, nodup_nil, .nil _, by rw [← hempty]⟩
    rintro addition rest held₁ u held₂ v
      ⟨hlocked₁, done, items, balances, rfl, hadds, hnodup, hposts, rfl⟩ hround
    have hget : (s.extensions.put { x with items := items }).get extension.id =
        some { x with items := items } := by
      rw [← hid]
      exact get_put_self s.extensions { x with items := items }
    have hlocked₂ := exec_subset hround hlocked₁
    obtain ⟨item, balances', hitem, hfresh, hposts', rfl⟩ :=
      exec_extendDimension (x := { x with items := items }) hget hlocked₁ hround
    -- What the round read as added before does not count the row of this extension.
    obtain ⟨g, hg, hprior⟩ := hitem.grant
    have hprior' : item.priorGrantedValue =
        g.grantedValue + extendedValue s x.envelopeID item.dimensionID :=
      hprior.trans (congrArg (g.grantedValue + ·) (extendedValue_put hnone hfresh x.envelopeID))
    refine ⟨hlocked₂, done ++ [addition], items ++ [item], balances', by simp, ?_, ?_, ?_, ?_⟩
    · exact rel_append hadds
        (.cons ⟨hitem.dimension, hitem.added, ⟨g, hg, hprior'⟩, hitem.sum⟩ .nil)
    · rw [map_append]
      refine List.Nodup.append hnodup (nodup_singleton _) ?_
      intro d hd hd'
      cases mem_singleton.mp hd'
      exact hfresh hd
    · have hentries := hposts.append hposts'
      simpa [Extension.entries] using hentries
    · simp only [put_put]
  obtain ⟨_, done, items, balances, hdone, hrest⟩ := hend
  rw [append_nil] at hdone
  subst hdone
  exact ⟨items, balances, hrest⟩

/-- What a committed extension did. -/
structure Extends (dep : Deployment) (extension : ResourceExtension) (row : Extension) (e : Envelope)
    (run run' : Run) (s t : Store) : Prop where
  fresh : ∀ x ∈ s.extensions.rows, x.id ≠ extension.id ∧
    ¬(x.actorPrincipalID = extension.actorPrincipalID ∧ x.idempotencyKey = extension.idempotencyKey)
  row_eq : row = { extensionRow extension (resourceExtensionDigest dep extension) e run
    run'.deadlineAt with items := row.items }
  envelope : s.envelopes.get e.id = some e
  envelope_run : e.runID = extension.runID
  run_get : s.runs.get extension.runID = some run
  run_active : run.state.terminal = false
  deadline : extendedDeadline run.deadlineAt extension.deadlineExtensionSeconds = .ok run'.deadlineAt
  run_kept : run'.id = run.id ∧ run'.requestedBy = run.requestedBy ∧ run'.createdAt = run.createdAt
  requester : run.requestedBy ≠ extension.actorPrincipalID
  run_eq : ∃ state, extendedState extension run = .ok state ∧ run'.check = true ∧
    run' = { run with
      deadlineAt := run'.deadlineAt
      state := state.1
      stateVersion := state.2
      updatedAt := extension.createdAt.stored }
  items : List.Forall₂ (AddsTo dep s.grants e.id (extendedValue s e.id)) extension.additions row.items
  items_nodup : (row.items.map (·.dimensionID)).Nodup
  posts : Posts row.entries s.accounts t.accounts
  store_eq : Store.Evidenced { s with
    extensions := s.extensions.put row
    balances := t.balances
    envelopes := s.envelopes.put { e with version := e.version + 1 }
    runs := s.runs.put run' } t

variable {evidence : ResourceExtensionEvidence}

theorem exec_appendExtensionEvidence
    {e : ID} {state : RunState} {version : Int} (hlocked : .run extension.runID ∈ held)
    (h : storeEngine.Exec (appendExtensionEvidence extension evidence e state version) held s r
      held' t) :
    s.Evidenced t ∧ t.signals = s.signals ∧ ∃ event, t.events.rows = s.events.rows ++ [event] ∧
      (event.runID = extension.runID ∧ event.sequence = s.lastSequence extension.runID + 1) ∧
      (event.state = state ∧ event.stateVersion = version) ∧ event.signalID = none := by
  obtain ⟨_, _, _, hsequence, h₁⟩ := exec_bind.mp h
  obtain ⟨hlast, rfl, rfl⟩ := exec_nextSequence hlocked hsequence
  obtain ⟨_, _, _, hevent, h₂⟩ := exec_bind.mp h₁
  obtain ⟨_, rfl, hevents, _⟩ := exec_insertEvent hevent
  obtain ⟨_, _, rfl⟩ := exec_evidence h₂
  exact ⟨⟨_, _, _, _, rfl⟩, rfl, _, hevents, ⟨rfl, hlast⟩, ⟨rfl, rfl⟩, rfl⟩

theorem exec_insertExtension {row : Extension}
    (h : storeEngine.Exec (insertExtension row) held s r held' t) :
    (∀ x ∈ s.extensions.rows, x.id ≠ row.id ∧ ¬(x.actorPrincipalID = row.actorPrincipalID ∧
      x.idempotencyKey = row.idempotencyKey)) ∧ held' = [.extension row.id] ++ held ∧
      t = { s with extensions := s.extensions.put row } := by
  obtain ⟨hclash, hheld, rfl⟩ := exec_insert.mp h
  refine ⟨fun x hx => ?_, hheld, rfl⟩
  simpa [not_or] using hclash x hx

variable {candidate : ResourceExtension} {result : ResourceExtensionResult}

theorem exec_applyExtension
    (hvalid : validateResourceExtension candidate = .ok extension)
    (h : storeEngine.Exec (applyExtension dep extension evidence) held s result held' t) :
    ∃ row e run run', Extends dep extension row e run run' s t ∧ result = row.result ∧
      ∀ response, Journals dep (.extendResources candidate evidence) response s t := by
  obtain ⟨_, _, h₁⟩ := exec_bind_snapshot.mp h
  obtain ⟨envelopeID, _, h₂⟩ := exec_bind_orThrow.mp h₁
  obtain ⟨e, _, _, henvelope, h₃⟩ := exec_bind.mp h₂
  obtain ⟨_, heGet, heOk, rfl, rfl⟩ := exec_lock.mp henvelope
  split_ifs at heOk with heRun
  cases heOk
  have heID : e.id = envelopeID := key_of_get heGet
  subst heID
  obtain ⟨run, _, _, hrun, h₄⟩ := exec_bind.mp h₃
  obtain ⟨_, hrunGet, hrunOk, rfl, rfl⟩ := exec_lock.mp hrun
  cases hrunOk
  obtain ⟨hother, h₅⟩ := exec_bind_require.mp h₄
  obtain ⟨hactive, h₆⟩ := exec_bind_require.mp h₅
  obtain ⟨newDeadline, hnewDeadline, h₈⟩ := exec_bind_ofExcept.mp h₆.checked
  obtain ⟨_, _, _, hinsert, h₉⟩ := exec_bind.mp h₈
  obtain ⟨hfresh, rfl, rfl⟩ := exec_insertExtension hinsert
  obtain ⟨_, _, _, hloop, h₁₀⟩ := exec_bind.mp h₉
  obtain ⟨items, balances, hitems, hnodup, hposts, rfl⟩ := exec_extendDimensions
    (x := extensionRow extension (resourceExtensionDigest dep extension) e run newDeadline)
    rfl rfl (get_eq_none_iff.mpr fun x hx => (hfresh x hx).1) (by simp [extensionRow]) hloop
  obtain ⟨state, hstates, h₁₁⟩ := exec_bind_ofExcept.mp h₁₀
  obtain ⟨_, _, _, hversioned, h₁₂⟩ := exec_bind.mp h₁₁
  obtain ⟨e', _, heGet', heChange, _, rfl⟩ := exec_update.mp hversioned
  have heSame : e = e' := Option.some.inj (heGet.symm.trans heGet')
  subst heSame
  cases heChange
  obtain ⟨_, _, _, hupdated, h₁₃⟩ := exec_bind.mp h₁₂
  obtain ⟨run₀, run', hrunGet', hrunChange, _, rfl⟩ := exec_update.mp hupdated
  have hrunSame : run = run₀ := Option.some.inj (hrunGet.symm.trans hrunGet')
  subst hrunSame
  dsimp only at hrunChange
  split_ifs at hrunChange with hcheck
  cases hrunChange
  obtain ⟨_, _, _, hevidence, hpure⟩ := exec_bind.mp h₁₃
  obtain ⟨⟨_, _, _, _, rfl⟩, hsignals, event, hevents, hnumbered, hstate, hunsignalled⟩ :=
    exec_appendExtensionEvidence (exec_subset hupdated (exec_subset hversioned (exec_subset hloop
      (by simp)))) hevidence
  obtain ⟨rfl, _, rfl⟩ := hpure
  have hid : run.id = extension.runID := key_of_get hrunGet
  refine ⟨{ extensionRow extension (resourceExtensionDigest dep extension) e run newDeadline with
    items := items }, e, run, { run with
      deadlineAt := newDeadline
      state := state.1
      stateVersion := state.2
      updatedAt := extension.createdAt.stored }, ⟨hfresh, rfl, heGet, heRun, hrunGet, hactive,
    hnewDeadline, ⟨rfl, rfl, rfl⟩, hother, ⟨state, hstates, hcheck, rfl⟩, hitems, hnodup, hposts,
    _, _, _, _, rfl⟩, rfl, fun response => .move run _ [event] (.single (hid ▸ hrunGet)
      (.extend candidate extension evidence response run newDeadline state hvalid hid hactive hstates)
      (fun _ => hcheck) rfl hevents ?_ hstate hsignals hunsignalled)⟩
  rw [hid]
  exact hnumbered

/-- A committed extension is a replay, or a first call under its key. -/
theorem exec_extendResources
    (h : storeEngine.Exec (extendResources dep candidate evidence) held s result held' t) :
    ∃ extension, validateResourceExtension candidate = .ok extension ∧
      ((t = s ∧ ∃ x ∈ s.extensions.rows, x.actorPrincipalID = extension.actorPrincipalID ∧
          x.idempotencyKey = extension.idempotencyKey ∧
          x.contentDigest = resourceExtensionDigest dep extension ∧ result = x.result) ∨
        ∃ row e run run', Extends dep extension row e run run' s t ∧ result = row.result ∧
          ∀ response, Journals dep (.extendResources candidate evidence) response s t) := by
  obtain ⟨extension, hok, h₁⟩ := exec_bind_ofExcept.mp h
  obtain ⟨_, _, _, hadvisory, h₄⟩ := exec_bind.mp h₁.checked.checked
  obtain ⟨rfl, rfl⟩ := exec_acquire.mp hadvisory
  obtain ⟨existing, ⟨seen, hseen, hfind⟩, h₅⟩ := exec_bind_snapshot.mp h₄
  refine ⟨extension, hok, ?_⟩
  cases existing with
  | none => exact Or.inr (exec_applyExtension hok h₅)
  | some x =>
    obtain ⟨hsame, hpure⟩ := exec_bind_require.mp h₅
    obtain ⟨rfl, _, rfl⟩ := hpure
    have hkey := find?_some hfind
    simp only [Bool.and_eq_true, decide_eq_true_eq] at hkey
    obtain ⟨_, hx, rfl⟩ := extensions_kept hseen _ x
      (get_of_mem (mem_of_find?_eq_some hfind))
    exact Or.inl ⟨rfl, x, mem_of_get hx, hkey.1, hkey.2, hsame, rfl⟩

end AgentGovernor
