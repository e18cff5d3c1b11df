import AgentGovernor.RevocationLog

/-! Delta reads of the log. A cursor counts numbers, retention counts time, and the times are those that
callers gave: the test at the boundary of retention looks only at the first number that is retained, so it
is exact only where the log before that number has expired and the log from there on has not. -/

namespace AgentGovernor

open Ledger Transaction RevocationSample List

variable {a : RevocationSystem × Int} {s t : RevocationStore}

/-! ### What the log refers to -/

/-- Entries and changes are about revocations that are there, and these pass their checks. -/
structure References (s : RevocationStore) : Prop where
  entries : ∀ l ∈ s.entries.rows, ∃ r, s.revocations.get l.revocationID = some r ∧
    r.tenantID = l.tenantID ∧ r.scope = l.scope ∧ r.target = l.target
  changes : ∀ c ∈ s.changes.rows, ∃ r, s.revocations.get c.revocationID = some r
  checked : ∀ r ∈ s.revocations.rows, r.check = true

theorem Changes.keeps {call : RevocationCall} {v : Revocation} {epochs : EpochVector}
    (h : Changes call v epochs s t) {id : ID} {r : RevocationRow} (hr : s.revocations.get id = some r) :
    t.revocations.get id = some r := by
  rw [h.revocations]
  obtain ⟨tenantID, action, evidence, sequence⟩ := call
  cases h.concerns with
  | create _ hfresh =>
    show (s.revocations.put v.row).get id = some r
    rw [Table.get_put_of_ne]
    · exact hr
    · rintro rfl
      rw [show s.revocations.get v.row.id = none from hfresh] at hr
      cases hr
  | lift => exact hr

theorem Changes.inserted {call : RevocationCall} {v : Revocation} {epochs : EpochVector}
    (h : Changes call v epochs s t) (r : RevocationRow) (hr : r ∈ t.revocations.rows) :
    r ∈ s.revocations.rows ∨ (r.id = v.id ∧ r.check = true) := by
  rw [h.revocations] at hr
  obtain ⟨tenantID, action, evidence, sequence⟩ := call
  cases h.concerns with
  | create hcheck _ =>
    rcases Table.mem_put.mp (show r ∈ (s.revocations.put v.row).rows from hr) with rfl | ⟨hr, _⟩
    · exact Or.inr ⟨rfl, hcheck⟩
    · exact Or.inl hr
  | lift => exact Or.inl hr

theorem Changes.changed {call : RevocationCall} {v : Revocation} {epochs : EpochVector}
    (h : Changes call v epochs s t) :
    ∃ r, t.revocations.get v.id = some r ∧ r.tenantID = v.tenantID ∧ r.scope = v.scope ∧
      r.target = v.target := by
  have hkeeps := @h.keeps
  rw [h.revocations] at hkeeps ⊢
  obtain ⟨tenantID, action, evidence, sequence⟩ := call
  cases h.concerns with
  | create => exact ⟨v.row, Table.get_put_self s.revocations v.row, rfl, rfl, rfl⟩
  | lift l r last hr _ _ _ hv =>
    have hid : v.id = l.revocationID := by
      rw [hv]
      exact Table.key_of_get (r := r) hr
    exact ⟨r, hkeeps (hid ▸ hr), by rw [hv]; exact ⟨rfl, rfl, rfl⟩⟩

theorem References.step {request : RevocationRequest} {response : RevocationResponse}
    (hcommit : revocationEngine.Commits revocationProgram request response s t) (hs : References s) :
    References t := by
  obtain ⟨held, hrevokes⟩ := revokes_of_commits hcommit
  cases hrevokes with
  | change call v epochs _ _ _ _ h =>
    refine ⟨fun l hl => ?_, fun c hc => ?_, fun r hr => (h.inserted r hr).elim (hs.checked r) And.right⟩
    · rw [h.entries, Table.rows_put_of_none _ h.freshEntry] at hl
      rcases mem_append.mp hl with hl | hl
      · obtain ⟨r, hr, hcolumns⟩ := hs.entries l hl
        exact ⟨r, h.keeps hr, hcolumns⟩
      · cases mem_singleton.mp hl
        exact h.changed
    · rw [h.changes, Table.rows_put_of_none _ h.freshChange] at hc
      rcases mem_append.mp hc with hc | hc
      · obtain ⟨r, hr⟩ := hs.changes c hc
        exact ⟨r, h.keeps hr⟩
      · cases mem_singleton.mp hc
        obtain ⟨r, hr, _⟩ := h.changed
        exact ⟨r, hr⟩
  | other _ _ hrevocations hchanges hentries =>
    exact ⟨hrevocations ▸ hentries ▸ hs.entries, hrevocations ▸ hchanges ▸ hs.changes,
      hrevocations ▸ hs.checked⟩

theorem references_initial : References RevocationStore.initial :=
  ⟨fun _ hl => absurd hl not_mem_nil, fun _ hc => absurd hc not_mem_nil,
    fun _ hr => absurd hr not_mem_nil⟩

theorem RevocationReachable.references (h : RevocationReachable a) : References a.1.committed :=
  (h.history.invariant references_initial fun _ _ _ _ => References.step).1

/-! ### What is visible -/

/-- The entries that a tenant may see, in the order of their commits. -/
def RevocationStore.seen (s : RevocationStore) (tenantID : ID) : List RevocationEntry :=
  s.entries.rows.filter fun l => visibleTo tenantID l.tenantID

theorem RevocationReachable.seen_increasing (h : RevocationReachable a) (tenantID : ID) :
    (a.1.committed.seen tenantID).Pairwise fun l l' => l.sequence < l'.sequence :=
  h.orderedLog.sequence.filter _

/-- The order by numbers is the order that is there. -/
theorem RevocationReachable.visible_eq (h : RevocationReachable a) (tenantID : ID) :
    a.1.committed.visible tenantID = a.1.committed.seen tenantID :=
  ((h.seen_increasing tenantID).imp fun hlt => Int.le_of_lt hlt).insertionSort_eq

/-! ### Exact reads -/

def validChangeQuery (tenantID : ID) (limit : Int) (retainedAfter : Time) : Bool :=
  !tenantID.isZero && 1 ≤ limit && limit ≤ 10001 && !retainedAfter.isZero

/-- Committed, as far as its instant tells, before the bound of retention. -/
def RevocationEntry.expired (retainedAfter : Time) (l : RevocationEntry) : Bool :=
  l.committedAt < retainedAfter.stored

/-- A delta read tells that the cursor is gone just when an entry after it has expired, and otherwise
returns the first entries after it in the order of their numbers. -/
structure ExactChanges (s : RevocationStore) (tenantID : ID) (after limit : Int) (retainedAfter : Time)
    (answer : Except Failure (List RevocationLogEntry)) : Prop where
  gone : answer = .error revocationCursorGone ↔
    ∃ l ∈ s.seen tenantID, after < l.sequence ∧ l.expired retainedAfter = true
  read : (∀ l ∈ s.seen tenantID, after < l.sequence → l.expired retainedAfter = false) →
    ∃ entries, answer = .ok entries ∧ entries.Pairwise (fun l l' => l.sequence < l'.sequence) ∧
      entries.map some = (((s.seen tenantID).filter fun l => after < l.sequence).take limit.toNat).map
        s.readEntry

/-- Where the boundary test is right: nothing has expired; or something after the cursor has, and what is
retained starts beyond the next number; or nothing after the cursor has, and what is retained starts at the
next number or before. -/
def RetentionAgrees (s : RevocationStore) (tenantID : ID) (after : Int) (retainedAfter : Time) : Prop :=
  (∀ l ∈ s.seen tenantID, l.expired retainedAfter = false) ∨
    ((∃ l ∈ s.seen tenantID, after < l.sequence ∧ l.expired retainedAfter = true) ∧
      ∀ l ∈ s.seen tenantID, l.expired retainedAfter = false → after + 1 < l.sequence) ∨
    ((∀ l ∈ s.seen tenantID, after < l.sequence → l.expired retainedAfter = false) ∧
      ∃ l ∈ s.seen tenantID, l.expired retainedAfter = false ∧ l.sequence ≤ after + 1)

instance (s : RevocationStore) (tenantID : ID) (after : Int) (retainedAfter : Time) :
    Decidable (RetentionAgrees s tenantID after retainedAfter) := inferInstanceAs (Decidable (_ ∨ _ ∨ _))

/-- What the boundary test asks. -/
def CursorGone (s : RevocationStore) (tenantID : ID) (after : Int) (retainedAfter : Time) : Prop :=
  (∃ l ∈ s.seen tenantID, l.expired retainedAfter = true) ∧
    ∀ l ∈ s.seen tenantID, l.expired retainedAfter = false → after + 1 < l.sequence

theorem all_min_iff {after : Int} {numbers : List Int} :
    numbers.min?.all (after < · - 1) = true ↔ ∀ n ∈ numbers, after + 1 < n := by
  cases hmin : numbers.min? with
  | none =>
    rw [min?_eq_none_iff.mp hmin]
    simp
  | some m =>
    obtain ⟨hm, hle⟩ := min?_eq_some_iff.mp hmin
    simp only [Option.all_some, decide_eq_true_eq]
    constructor
    · intro hlt n hn
      have := hle n hn
      omega
    · intro hall
      have := hall m hm
      omega

theorem RevocationReachable.boundary_iff (h : RevocationReachable a) {tenantID : ID} {after : Int}
    {retainedAfter : Time} :
    ((retentionBoundary tenantID retainedAfter.stored a.1.committed).2 = true ∧
      (retentionBoundary tenantID retainedAfter.stored a.1.committed).1.all (after < · - 1) = true) ↔
      CursorGone a.1.committed tenantID after retainedAfter := by
  unfold retentionBoundary CursorGone
  rw [h.visible_eq, all_min_iff]
  simp only [List.any_eq_true, List.mem_map, mem_filter, RevocationEntry.expired, decide_eq_true_eq,
    decide_eq_false_iff_not, Int.not_lt]
  refine and_congr_right fun _ => ⟨fun hall l hl hretained => hall _ ⟨l, ⟨hl, hretained⟩, rfl⟩, ?_⟩
  rintro hall _ ⟨l, ⟨hl, hretained⟩, rfl⟩
  exact hall l hl hretained

theorem run_revocationChanges (s : RevocationStore) (tenantID : ID) {after : Int} (limit : Int)
    (retainedAfter : Time) (hafter : 0 ≤ after) :
    (revocationEngine.run (revocationChanges tenantID after limit retainedAfter) s).map Prod.fst =
      if validChangeQuery tenantID limit retainedAfter = true then
        if (retentionBoundary tenantID retainedAfter.stored s).2 = true ∧
            (retentionBoundary tenantID retainedAfter.stored s).1.all (after < · - 1) = true then
          .error revocationCursorGone
        else .ok ((((s.visible tenantID).filter fun l =>
          after < l.sequence && retainedAfter.stored ≤ l.committedAt).filterMap s.readEntry).take limit.toNat)
      else .error (.plain "revocation change query is invalid") := by
  have hquery : (!tenantID.isZero ∧ 0 ≤ after ∧ 1 ≤ limit ∧ limit ≤ 10001 ∧ !retainedAfter.isZero) ↔
      validChangeQuery tenantID limit retainedAfter = true := by
    simp [validChangeQuery, hafter, and_assoc]
  unfold revocationChanges Tx.require
  by_cases hvalid : validChangeQuery tenantID limit retainedAfter = true
  · rw [if_pos (hquery.mpr hvalid), if_pos hvalid]
    split_ifs with hgone
    · show (revocationEngine.run ((if _ then _ else _ : RevocationOp Unit).bind _) s).map Prod.fst = _
      rw [if_neg (not_not.mpr hgone)]
      rfl
    · show (revocationEngine.run ((if _ then _ else _ : RevocationOp Unit).bind _) s).map Prod.fst = _
      rw [if_pos hgone]
      rfl
  · rw [if_neg (mt hquery.mp hvalid), if_neg hvalid]
    rfl

/-! ### What is returned -/

theorem map_some_take_filterMap {α β : Type} {f : α → Option β} {xs : List α}
    (h : ∀ x ∈ xs, ∃ y, f x = some y) (n : Nat) :
    ((xs.filterMap f).take n).map some = (xs.take n).map f := by
  induction xs generalizing n with
  | nil => simp
  | cons x xs ih =>
    obtain ⟨y, hy⟩ := h x mem_cons_self
    rw [filterMap_cons_some hy]
    cases n with
    | zero => rfl
    | succ n =>
      rw [take_succ_cons, take_succ_cons, map_cons, map_cons, hy,
        ih fun x hx => h x (mem_cons_of_mem _ hx)]

theorem sequence_of_readEntry {l : RevocationEntry} {entry : RevocationLogEntry}
    (h : s.readEntry l = some entry) : entry.sequence = l.sequence := by
  obtain ⟨r, _, rfl⟩ := Option.map_eq_some_iff.mp h
  rfl

theorem RevocationReachable.read_eq (h : RevocationReachable a) {tenantID : ID} {after : Int}
    {retainedAfter : Time} (limit : Nat)
    (hretained : ∀ l ∈ a.1.committed.seen tenantID, after < l.sequence → l.expired retainedAfter = false) :
    let entries := (((a.1.committed.visible tenantID).filter fun l =>
      after < l.sequence && retainedAfter.stored ≤ l.committedAt).filterMap a.1.committed.readEntry).take limit
    entries.Pairwise (fun l l' => l.sequence < l'.sequence) ∧
      entries.map some = (((a.1.committed.seen tenantID).filter fun l => after < l.sequence).take limit).map
        a.1.committed.readEntry := by
  have hfilter : (a.1.committed.visible tenantID).filter (fun l =>
      after < l.sequence && retainedAfter.stored ≤ l.committedAt) =
        (a.1.committed.seen tenantID).filter fun l => after < l.sequence := by
    rw [h.visible_eq]
    refine filter_congr fun l hl => ?_
    by_cases hlater : after < l.sequence
    · have hkept := of_decide_eq_false (hretained l hl hlater)
      simp [hlater, Int.not_lt.mp hkept]
    · simp [hlater]
  rw [hfilter]
  refine ⟨List.Pairwise.sublist (take_sublist _ _) ?_, map_some_take_filterMap (fun l hl => ?_) limit⟩
  · rw [pairwise_filterMap]
    refine ((h.seen_increasing tenantID).filter _).imp fun hlt entry hentry entry' hentry' => ?_
    rw [sequence_of_readEntry hentry, sequence_of_readEntry hentry']
    exact hlt
  · obtain ⟨r, hr, _⟩ := h.references.entries l
      (mem_filter.mp (mem_filter.mp hl).1).1
    exact ⟨_, congrArg (Option.map _) hr⟩

theorem not_cursorGone_iff {tenantID : ID} {after : Int} {retainedAfter : Time}
    (h : ¬CursorGone s tenantID after retainedAfter) :
    RetentionAgrees s tenantID after retainedAfter ↔
      ∀ l ∈ s.seen tenantID, after < l.sequence → l.expired retainedAfter = false := by
  constructor
  · rintro (hnone | ⟨⟨l, hl, _, hexpired⟩, hbeyond⟩ | ⟨hretained, _⟩)
    · exact fun l hl _ => hnone l hl
    · exact absurd ⟨⟨l, hl, hexpired⟩, hbeyond⟩ h
    · exact hretained
  · intro hretained
    by_cases hnone : ∀ l ∈ s.seen tenantID, l.expired retainedAfter = false
    · exact Or.inl hnone
    · refine Or.inr (Or.inr ⟨hretained, ?_⟩)
      by_contra hbeyond
      push Not at hnone hbeyond
      obtain ⟨l, hl, hexpired⟩ := hnone
      exact h ⟨⟨l, hl, Bool.not_eq_false _ ▸ hexpired⟩, hbeyond⟩

theorem cursorGone_iff {tenantID : ID} {after : Int} {retainedAfter : Time}
    (h : CursorGone s tenantID after retainedAfter) :
    RetentionAgrees s tenantID after retainedAfter ↔
      ∃ l ∈ s.seen tenantID, after < l.sequence ∧ l.expired retainedAfter = true := by
  obtain ⟨⟨l, hl, hexpired⟩, hbeyond⟩ := h
  constructor
  · rintro (hnone | ⟨hlater, _⟩ | ⟨_, l', hl', hretained, hnext⟩)
    · rw [hnone l hl] at hexpired
      cases hexpired
    · exact hlater
    · have := hbeyond l' hl' hretained
      omega
  · exact fun hlater => Or.inr (Or.inl ⟨hlater, hbeyond⟩)

/-- A delta read is exact just for valid queries where the boundary test is right. -/
theorem revocation_changes_exact (h : RevocationReachable a) (tenantID : ID) (after limit : Int)
    (retainedAfter : Time) (hafter : 0 ≤ after) :
    ExactChanges a.1.committed tenantID after limit retainedAfter
        ((revocationEngine.run (revocationChanges tenantID after limit retainedAfter) a.1.committed).map
          Prod.fst) ↔
      validChangeQuery tenantID limit retainedAfter = true ∧
        RetentionAgrees a.1.committed tenantID after retainedAfter := by
  rw [run_revocationChanges _ _ _ _ hafter]
  by_cases hvalid : validChangeQuery tenantID limit retainedAfter = true
  · rw [if_pos hvalid, and_iff_right hvalid]
    by_cases hgone : CursorGone a.1.committed tenantID after retainedAfter
    · rw [if_pos (h.boundary_iff.mpr hgone), cursorGone_iff hgone]
      refine ⟨fun hexact => hexact.gone.mp rfl, fun hlater => ⟨iff_of_true rfl hlater, fun hretained => ?_⟩⟩
      obtain ⟨l, hl, hafter, hexpired⟩ := hlater
      rw [hretained l hl hafter] at hexpired
      cases hexpired
    · rw [if_neg (mt h.boundary_iff.mp hgone), not_cursorGone_iff hgone]
      constructor
      · intro hexact l hl hlater
        by_contra hexpired
        have herror := hexact.gone.mpr ⟨l, hl, hlater, Bool.not_eq_false _ ▸ hexpired⟩
        cases herror
      · intro hretained
        refine ⟨iff_of_false nofun ?_, fun _ => ⟨_, rfl, h.read_eq limit.toNat hretained⟩⟩
        rintro ⟨l, hl, hlater, hexpired⟩
        rw [hretained l hl hlater] at hexpired
        cases hexpired
  · rw [if_neg hvalid]
    refine iff_of_false (fun hexact => ?_) fun hboth => hvalid hboth.1
    have hretained : ∀ l ∈ a.1.committed.seen tenantID, after < l.sequence →
        l.expired retainedAfter = false := by
      intro l hl hlater
      by_contra hexpired
      have herror := hexact.gone.mpr ⟨l, hl, hlater, Bool.not_eq_false _ ▸ hexpired⟩
      exact absurd (Except.error.inj herror) (by decide)
    obtain ⟨_, hok, _⟩ := hexact.read hretained
    cases hok

namespace RevocationSample

/-- Revocations of two principals, created at the given instants. -/
def principals (first second : Int) : List RevocationRequest :=
  [create 1 .principalID "principal-1" first 1, create 2 .principalID "principal-2" second 2]

def changesAfter (requests : List RevocationRequest) (cursor : Int) :
    Except Failure (List RevocationLogEntry) :=
  (revocationEngine.run (revocationChanges tenant cursor 10 (instant 50)) (after requests).1.committed).map
    Prod.fst

theorem principals_agree :
    RetentionAgrees (after (principals 10 60)).1.committed tenant 1 (instant 50) ∧
      (changesAfter (principals 10 60) 1).map (·.map RevocationLogEntry.sequence) = .ok [2] := by
  decide +kernel

/-- The second revocation is dated back, and a cursor at the start does not get to see it. -/
theorem principals_skipped :
    (changesAfter (principals 60 10) 0).map (·.map RevocationLogEntry.sequence) = .ok [1] ∧
      ∃ l ∈ (after (principals 60 10)).1.committed.seen tenant,
        0 < l.sequence ∧ l.expired (instant 50) = true := by
  decide +kernel

/-- Nothing has happened for long, and a cursor at the end is told to be gone. -/
theorem principals_gone :
    changesAfter (principals 10 20) 2 = .error revocationCursorGone ∧
      ¬∃ l ∈ (after (principals 10 20)).1.committed.seen tenant,
        2 < l.sequence ∧ l.expired (instant 50) = true := by
  decide +kernel

end RevocationSample

theorem revocation_changes_exact_retained :
    ExactChanges (after (principals 10 60)).1.committed
        tenant 1 10 (instant 50)
        (changesAfter (principals 10 60) 1) ∧
      (changesAfter (principals 10 60) 1).map
        (·.map RevocationLogEntry.sequence) = .ok [2] :=
  ⟨(revocation_changes_exact (reachable _) tenant 1 10
      (instant 50) (by decide)).mpr ⟨by decide, principals_agree.1⟩,
    principals_agree.2⟩

/-- A read that leaves out an expired entry without a word, and one that turns away a cursor which has
missed nothing. -/
theorem revocation_changes_inexact :
    ¬ExactChanges (after (principals 60 10)).1.committed
        tenant 0 10 (instant 50)
        (changesAfter (principals 60 10) 0) ∧
      ¬ExactChanges (after (principals 10 20)).1.committed
        tenant 2 10 (instant 50)
        (changesAfter (principals 10 20) 2) := by
  constructor
  · intro hexact
    obtain ⟨hread, hexpired⟩ := principals_skipped
    rw [hexact.gone.mpr hexpired] at hread
    cases hread
  · intro hexact
    obtain ⟨hgone, hnone⟩ := principals_gone
    exact hnone (hexact.gone.mp hgone)

end AgentGovernor
