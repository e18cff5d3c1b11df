import AgentGovernor.RevocationTransition

/-! The log of revocations. Its numbers are drawn from a counter that knows nothing of commits, but only
under the singleton of the security epoch, which is kept to the commit: so the numbers, the epochs and the
commits are in one order, and what is committed later is numbered later. -/

namespace AgentGovernor

open Ledger Transaction List

abbrev RevocationSystem : Type :=
  System RevocationStore RevocationLock revocationSchema.Write Failure RevocationResponse RevocationRequest

abbrev RevocationCommit : Type := Commit RevocationStore RevocationResponse RevocationRequest

/-- The systems, with the counter of the log, that sessions of all tenants reach in any interleaving. -/
def RevocationReachable (a : RevocationSystem × Int) : Prop :=
  logSequence.Reaches revocationProgram RevocationStore.initial a

/-- Further steps of the sessions. -/
def RevocationLater : RevocationSystem × Int → RevocationSystem × Int → Prop :=
  Relation.ReflTransGen (logSequence.Step revocationProgram)

variable {a b : RevocationSystem × Int} {s t : RevocationStore}

theorem RevocationReachable.history (h : RevocationReachable a) :
    revocationEngine.History revocationProgram RevocationStore.initial a.1.log a.1.committed :=
  Engine.Reaches.history disciplined_revocationProgram h.reaches

variable {request : RevocationRequest} {response : RevocationResponse}

theorem revokes_of_commits
    (h : revocationEngine.Commits revocationProgram request response s t) :
    ∃ held, Revokes request response held s t := by
  obtain ⟨held, hexec⟩ := h
  exact ⟨held, exec_revocationProgram hexec⟩

/-! ### What commits append -/

/-- The entry that a commit appended to the log. -/
def RevocationCommit.entry (c : RevocationCommit) : Option RevocationEntry :=
  match c.response with
  | .changed result => c.after.entries.get result.sequence
  | _ => none

variable {epochs : EpochVector} {v : Revocation}

theorem RevocationCommit.entry_of_changes {call : RevocationCall}
    (h : Changes call v epochs s t) :
    RevocationCommit.entry ⟨request, .changed ⟨v, call.action.change, call.sequence, epochs⟩, s, t⟩ =
      some (call.entry v epochs) := by
  show t.entries.get (call.entry v epochs).sequence = _
  rw [h.entries, Table.get_put_self]

theorem RevocationCommit.entry_of_response {c : RevocationCommit}
    (h : ∀ result, c.response ≠ .changed result) : RevocationCommit.entry c = none := by
  unfold RevocationCommit.entry
  split
  · rename_i result hresult
    exact absurd hresult (h result)
  · rfl

variable {log : List RevocationCommit}

theorem entries_of_history
    (h : revocationEngine.History revocationProgram RevocationStore.initial log s) :
    s.entries.rows = log.filterMap RevocationCommit.entry := by
  induction h with
  | nil => rfl
  | snoc _ hcommit ih =>
    obtain ⟨held, hrevokes⟩ := revokes_of_commits hcommit
    rw [filterMap_append, ← ih]
    cases hrevokes with
    | change call v epochs _ hresponse _ _ h =>
      subst hresponse
      rw [h.entries, Table.rows_put_of_none _ h.freshEntry, filterMap_cons_some
        (RevocationCommit.entry_of_changes h)]
      rfl
    | other _ hresponse _ _ hentries =>
      rw [hentries, filterMap_cons_none (RevocationCommit.entry_of_response hresponse)]
      simp

/-! ### Epochs -/

def RevocationStore.securityEpoch (s : RevocationStore) : Int :=
  s.securityEpochs.column SecurityEpoch.securityEpoch ()

def RevocationStore.tenantEpoch (s : RevocationStore) (tenantID : ID) : Int :=
  s.tenantEpochs.column TenantEpoch.revocationEpoch tenantID

def RevocationStore.policyEpoch (s : RevocationStore) (tenantID : ID) : Int :=
  s.tenantEpochs.column TenantEpoch.policyEpoch tenantID

def RevocationStore.agentEpoch (s : RevocationStore) (tenantID agentID : ID) : Int :=
  s.agentEpochs.column AgentEpoch.revocationEpoch (tenantID, agentID)

/-- There is an entry with the number. -/
def RevocationStore.Logged (s : RevocationStore) (n : Int) : Prop := ∃ l ∈ s.entries.rows, l.sequence = n

/-- Entries stay and epochs do not go back. -/
structure LogGrows (s t : RevocationStore) : Prop where
  entries : ∀ l ∈ s.entries.rows, l ∈ t.entries.rows
  security : s.securityEpoch ≤ t.securityEpoch
  tenant : ∀ tenantID, s.tenantEpoch tenantID ≤ t.tenantEpoch tenantID
  policy : ∀ tenantID, s.policyEpoch tenantID ≤ t.policyEpoch tenantID
  agent : ∀ tenantID agentID, s.agentEpoch tenantID agentID ≤ t.agentEpoch tenantID agentID

theorem LogGrows.logged (h : LogGrows s t) {n : Int} : s.Logged n → t.Logged n :=
  fun ⟨l, hl, hn⟩ => ⟨l, h.entries l hl, hn⟩

theorem LogGrows.refl (s : RevocationStore) : LogGrows s s :=
  ⟨fun _ => id, Int.le_refl _, fun _ => Int.le_refl _, fun _ => Int.le_refl _, fun _ _ => Int.le_refl _⟩

theorem LogGrows.trans {u : RevocationStore} (h : LogGrows s t) (h' : LogGrows t u) : LogGrows s u :=
  ⟨fun l hl => h'.entries l (h.entries l hl), Int.le_trans h.security h'.security,
    fun k => Int.le_trans (h.tenant k) (h'.tenant k), fun k => Int.le_trans (h.policy k) (h'.policy k),
    fun k k' => Int.le_trans (h.agent k k') (h'.agent k k')⟩

theorem AdvancesEpochs.agent_le (h : AdvancesEpochs v epochs s t)
    (tenantID agentID : ID) : s.agentEpoch tenantID agentID ≤ t.agentEpoch tenantID agentID := by
  rcases h.agent with ⟨_, hsame, _⟩ | ⟨owner, agent, _, _, hadvance⟩
  · unfold RevocationStore.agentEpoch
    rw [hsame]
  · exact hadvance.le _

theorem Revokes.grows
    {held : List RevocationLock} (h : Revokes request response held s t) : LogGrows s t := by
  cases h with
  | change call v epochs _ _ _ _ h =>
    refine ⟨fun l hl => ?_, h.advances.security.le (), fun k => ?_, fun k => ?_, h.advances.agent_le⟩
    · rw [h.entries, Table.rows_put_of_none _ h.freshEntry]
      exact mem_append_left _ hl
    · cases howner : v.tenantID with
      | none =>
        unfold RevocationStore.tenantEpoch
        rw [h.advances.global howner]
      | some owner => exact (h.advances.tenant owner howner).le k
    · cases howner : v.tenantID with
      | none =>
        unfold RevocationStore.policyEpoch
        rw [h.advances.global howner]
      | some owner => exact (h.advances.policy owner howner).2 k
  | other _ _ _ _ hentries hsecurity htenants hagents hpolicies =>
    refine ⟨fun l hl => hentries ▸ hl, ?_, fun k => Int.le_of_eq (htenants k).symm, hpolicies,
      fun k k' => ?_⟩
    · unfold RevocationStore.securityEpoch
      rw [hsecurity]
    · unfold RevocationStore.agentEpoch
      rw [hagents]

/-- Epochs start at zero, and no commit takes one back. -/
theorem grows_before
    (h : revocationEngine.History revocationProgram RevocationStore.initial log s) :
    ∀ c ∈ log, LogGrows RevocationStore.initial c.before := by
  intro c hc
  refine ((h.invariant (P := LogGrows RevocationStore.initial) (.refl _) ?_).2 c hc).1
  intro request response s t hcommit hs
  obtain ⟨held, hrevokes⟩ := revokes_of_commits hcommit
  exact hs.trans hrevokes.grows

/-! ### Order -/

/-- The commit counted a change of the agent. -/
def RevocationCommit.counts (tenantID agentID : ID) (c : RevocationCommit) : Bool :=
  c.before.agentEpoch tenantID agentID ≠ c.after.agentEpoch tenantID agentID

/-- The entries that tell changes of one agent, in commit order. -/
def agentEntries (log : List RevocationCommit) (tenantID agentID : ID) : List RevocationEntry :=
  (log.filter (RevocationCommit.counts tenantID agentID)).filterMap RevocationCommit.entry

/-- Both epochs are there, and the second is greater. -/
def EpochBelow (epoch epoch' : Option Int) : Prop :=
  ∃ n n', epoch = some n ∧ epoch' = some n' ∧ n < n'

/-- The entry names the agent, or a version that was looked up. -/
def RevocationEntry.NamesAgent (l : RevocationEntry) (agentID : ID) : Prop :=
  (l.scope = .agentID ∧ parseID l.target = some agentID) ∨ l.scope = .agentVersion

/-- How an entry relates to the databases before and after the commit that appended it. -/
structure Appends (c : RevocationCommit) (l : RevocationEntry) : Prop where
  fresh : ¬c.before.Logged l.sequence
  logged : c.after.Logged l.sequence
  security : c.before.securityEpoch < l.securityEpoch ∧ l.securityEpoch = c.after.securityEpoch
  tenant : ∀ tenantID, l.tenantID = some tenantID → c.before.tenantEpoch tenantID <
    c.after.tenantEpoch tenantID ∧ l.tenantRevocationEpoch = some (c.after.tenantEpoch tenantID)
  policy : ∀ tenantID, l.tenantID = some tenantID →
    l.tenantPolicyEpoch = some (c.after.policyEpoch tenantID)
  global : l.tenantID = none → l.tenantRevocationEpoch = none ∧ l.tenantPolicyEpoch = none
  agentNonneg : 0 ≤ l.agentRevocationEpoch.getD 0
  agent : ∀ tenantID agentID, RevocationCommit.counts tenantID agentID c = true →
    c.before.agentEpoch tenantID agentID < c.after.agentEpoch tenantID agentID ∧
      l.agentRevocationEpoch = some (c.after.agentEpoch tenantID agentID) ∧ l.tenantID = some tenantID ∧
      l.NamesAgent agentID
  counted : ∀ tenantID, l.tenantID = some tenantID → ∀ agentID, l.NamesAgent agentID →
    ∃ counted, RevocationCommit.counts tenantID counted c = true ∧ (l.scope = .agentID → counted = agentID)

theorem Changes.appends {call : RevocationCall}
    (h : Changes call v epochs s t)
    (hnonneg : ∀ tenantID agentID, 0 ≤ s.agentEpoch tenantID agentID) :
    Appends ⟨request, response, s, t⟩ (call.entry v epochs) where
  fresh := fun ⟨l, hl, hsequence⟩ => Table.get_eq_none_iff.mp h.freshEntry l hl hsequence
  logged := by
    refine ⟨_, ?_, rfl⟩
    rw [h.entries]
    exact Table.mem_of_get (Table.get_put_self _ _)
  security := by
    have hnext := h.advances.security.next
    have hreached := h.advances.security.reached
    refine ⟨?_, hreached.symm⟩
    show s.securityEpochs.column SecurityEpoch.securityEpoch () < epochs.security
    omega
  tenant tenantID htenant := by
    have howner : v.tenantID = some tenantID := htenant
    have hadvance := h.advances.tenant tenantID howner
    have hnext := hadvance.next
    have hreached : t.tenantEpoch tenantID = epochs.tenantRevocation := hadvance.reached
    refine ⟨?_, ?_⟩
    · rw [hreached, hnext]
      exact Int.lt_succ _
    · rw [hreached]
      show v.tenantID.map (fun _ => epochs.tenantRevocation) = _
      rw [howner]
      rfl
  policy tenantID htenant := by
    have howner : v.tenantID = some tenantID := htenant
    have hreached : t.policyEpoch tenantID = epochs.tenantPolicy := (h.advances.policy tenantID howner).1
    rw [hreached]
    show v.tenantID.map (fun _ => epochs.tenantPolicy) = _
    rw [howner]
    rfl
  global htenant := by
    have howner : v.tenantID = none := htenant
    show v.tenantID.map _ = none ∧ v.tenantID.map _ = none
    rw [howner]
    exact ⟨rfl, rfl⟩
  agentNonneg := by
    have hepoch : 0 ≤ epochs.agentRevocation := by
      rcases h.advances.agent with ⟨hzero, _⟩ | ⟨owner, agent, _, _, hadvance⟩
      · omega
      · have hnext : epochs.agentRevocation = s.agentEpoch owner agent + 1 := hadvance.next
        have hpositive := hnonneg owner agent
        omega
    show 0 ≤ (if epochs.agentRevocation = 0 then none else some epochs.agentRevocation).getD 0
    split_ifs
    · exact Int.le_refl 0
    · exact hepoch
  agent tenantID agentID hcounts := by
    have hmoved : s.agentEpoch tenantID agentID ≠ t.agentEpoch tenantID agentID := of_decide_eq_true hcounts
    rcases h.advances.agent with ⟨_, hsame, _⟩ | ⟨owner, agent, howner, hnames, hadvance⟩
    · refine absurd ?_ hmoved
      unfold RevocationStore.agentEpoch
      rw [hsame]
    · by_cases hkey : (tenantID, agentID) = (owner, agent)
      · cases hkey
        have hnext : epochs.agentRevocation = s.agentEpoch tenantID agentID + 1 := hadvance.next
        have hreached : t.agentEpoch tenantID agentID = epochs.agentRevocation := hadvance.reached
        have hpositive := hnonneg tenantID agentID
        refine ⟨?_, ?_, howner, hnames⟩
        · rw [hreached, hnext]
          exact Int.lt_succ _
        · rw [hreached]
          exact if_neg (by omega)
      · exact absurd (hadvance.others _ hkey).symm hmoved
  counted tenantID htenant agentID hnames := by
    have howner : v.tenantID = some tenantID := htenant
    have hnames : v.NamesAgent agentID := hnames
    rcases h.advances.agent with ⟨_, _, hnobody⟩ | ⟨owner, agent, howner', hnames', hadvance⟩
    · rcases hnobody with hglobal | hnobody
      · rw [howner] at hglobal
        cases hglobal
      · exact absurd hnames (hnobody agentID)
    · rw [howner] at howner'
      cases howner'
      have hnext : epochs.agentRevocation = s.agentEpoch tenantID agent + 1 := hadvance.next
      have hreached : t.agentEpoch tenantID agent = epochs.agentRevocation := hadvance.reached
      refine ⟨agent, decide_eq_true ?_, fun hscope => ?_⟩
      · show s.agentEpoch tenantID agent ≠ t.agentEpoch tenantID agent
        omega
      · have hscope : v.scope = .agentID := hscope
        simp only [Revocation.NamesAgent, hscope, reduceCtorEq, or_false, true_and] at hnames hnames'
        exact Option.some.inj (hnames'.symm.trans hnames)

theorem appends_of_history
    (h : revocationEngine.History revocationProgram RevocationStore.initial log s) {c : RevocationCommit}
    (hc : c ∈ log) {l : RevocationEntry} (hl : RevocationCommit.entry c = some l) : Appends c l := by
  obtain ⟨held, hrevokes⟩ := revokes_of_commits (h.commits hc)
  obtain ⟨request, response, before, after⟩ := c
  cases hrevokes with
  | change call v epochs _ hresponse _ _ hchanges =>
    dsimp only at hresponse
    subst hresponse
    rw [RevocationCommit.entry_of_changes hchanges] at hl
    cases hl
    exact hchanges.appends (grows_before h _ hc).agent
  | other _ hresponse =>
    rw [RevocationCommit.entry_of_response hresponse] at hl
    cases hl

/-- The order of the log: its entries are those of the commits, one for each change, and their numbers and
epochs follow the order of the commits. -/
structure OrderedLog (log : List RevocationCommit) (entries : List RevocationEntry) : Prop where
  commits : entries = log.filterMap RevocationCommit.entry
  changes : ∀ c ∈ log, ∀ result, c.response = .changed result →
    ∃ l, RevocationCommit.entry c = some l ∧ l.sequence = result.sequence ∧
      l.revocationID = result.revocation.id ∧ l.changeType = result.state
  sequence : entries.Pairwise fun l l' => l.sequence < l'.sequence
  security : entries.Pairwise fun l l' => l.securityEpoch < l'.securityEpoch
  tenant : ∀ tenantID, (entries.filter fun l => l.tenantID = some tenantID).Pairwise
    fun l l' => EpochBelow l.tenantRevocationEpoch l'.tenantRevocationEpoch
  agent : ∀ tenantID agentID, (agentEntries log tenantID agentID).Pairwise
    fun l l' => EpochBelow l.agentRevocationEpoch l'.agentRevocationEpoch
  counted : ∀ c ∈ log, ∀ l, RevocationCommit.entry c = some l → ∀ tenantID, l.tenantID = some tenantID →
    ∀ agentID, l.NamesAgent agentID → ∃ counted, RevocationCommit.counts tenantID counted c = true ∧
      (l.scope = .agentID → counted = agentID)

/-! ### Numbers and readers -/

theorem logged_of_exec
    {held : List RevocationLock}
    (h : revocationEngine.Exec (revocationProgram request) [] s response held t) (n : Int)
    (hn : t.Logged n) : s.Logged n ∨ n ∈ logSequence.numbers held := by
  cases exec_revocationProgram h with
  | change call v epochs _ _ hheld _ h =>
    obtain ⟨l, hl, rfl⟩ := hn
    rw [h.entries, Table.rows_put_of_none _ h.freshEntry] at hl
    rcases mem_append.mp hl with hl | hl
    · exact Or.inl ⟨l, hl, rfl⟩
    · cases mem_singleton.mp hl
      exact Or.inr (mem_filterMap.mpr ⟨_, hheld, rfl⟩)
  | other _ _ _ _ hentries =>
    obtain ⟨l, hl, rfl⟩ := hn
    exact Or.inl ⟨l, hentries ▸ hl, rfl⟩

theorem not_logged_initial (n : Int) : ¬RevocationStore.initial.Logged n :=
  fun ⟨_, hl, _⟩ => absurd hl not_mem_nil

theorem RevocationReachable.ordered (h : RevocationReachable a) :
    logSequence.Ordered RevocationStore.Logged a :=
  Sequence.Reaches.ordered disciplined_revocationProgram drawsUnder_revocationProgram
    (fun _ _ _ _ _ hexec n hn => logged_of_exec hexec n hn) not_logged_initial h

theorem RevocationReachable.above (h : RevocationReachable a) (hlater : RevocationLater a b) {m n : Int}
    (hm : a.1.committed.Logged m) (hn : b.1.committed.Logged n) (hnew : ¬a.1.committed.Logged n) : m < n :=
  (Sequence.Reaches.above_recorded disciplined_revocationProgram drawsUnder_revocationProgram
    (fun _ _ _ _ _ hexec n hn => logged_of_exec hexec n hn) not_logged_initial
    (fun _ _ _ _ _ hexec _ => (exec_revocationProgram hexec).grows.logged) h hlater) m n hm hn hnew

theorem RevocationReachable.grows (h : RevocationReachable a) (hlater : RevocationLater a b) :
    LogGrows a.1.committed b.1.committed :=
  Sequence.Reaches.relates disciplined_revocationProgram LogGrows.refl (fun _ _ _ => LogGrows.trans)
    (fun _ _ _ _ _ hexec => (exec_revocationProgram hexec).grows) h hlater

/-- What holds of the entries that commits append holds of the log. -/
theorem RevocationReachable.entries_all (h : RevocationReachable a) {P : RevocationEntry → Prop}
    (hP : ∀ c ∈ a.1.log, LogGrows RevocationStore.initial c.before → ∀ l, Appends c l → P l) :
    ∀ l ∈ a.1.committed.entries.rows, P l := by
  intro l hl
  rw [entries_of_history h.history] at hl
  obtain ⟨c, hc, hentry⟩ := mem_filterMap.mp hl
  exact hP c hc (grows_before h.history c hc) l (appends_of_history h.history hc hentry)

theorem RevocationReachable.log_grows (h : RevocationReachable a) :
    a.1.log.Pairwise fun c c' => LogGrows c.after c'.before :=
  h.history.pairwise LogGrows.refl (fun _ _ _ => LogGrows.trans) fun c hc => by
    obtain ⟨held, hrevokes⟩ := revokes_of_commits (h.history.commits hc)
    exact hrevokes.grows

/-- What holds of the entries that one commit and a later one append holds along the log. -/
theorem RevocationReachable.entries_pairwise (h : RevocationReachable a)
    {R : RevocationEntry → RevocationEntry → Prop}
    (hR : ∀ c ∈ a.1.log, ∀ c' ∈ a.1.log, LogGrows c.after c'.before → ∀ l l', Appends c l → Appends c' l' →
      R l l') : a.1.committed.entries.rows.Pairwise R := by
  rw [entries_of_history h.history, pairwise_filterMap]
  refine h.log_grows.imp_of_mem fun {c c'} hc hc' hbetween l hl l' hl' => ?_
  exact hR c hc c' hc' hbetween l l' (appends_of_history h.history hc hl)
    (appends_of_history h.history hc' hl')

theorem RevocationReachable.orderedLog (h : RevocationReachable a) :
    OrderedLog a.1.log a.1.committed.entries.rows := by
  have hhistory := h.history
  refine ⟨entries_of_history hhistory, fun c hc result hresult => ?_, ?_, ?_, fun tenantID => ?_, fun tenantID agentID => ?_,
    fun c hc l hl => (appends_of_history hhistory hc hl).counted⟩
  · obtain ⟨held, hrevokes⟩ := revokes_of_commits (hhistory.commits hc)
    obtain ⟨request, response, before, after⟩ := c
    cases hrevokes with
    | change call v epochs _ hresponse _ _ hchanges =>
      dsimp only at hresponse hresult
      subst hresponse
      cases hresult
      exact ⟨_, RevocationCommit.entry_of_changes hchanges, rfl, rfl, rfl⟩
    | other _ hresponse => exact absurd hresult (hresponse result)
  · refine h.entries_pairwise fun c hc c' hc' hbetween l l' hl hl' => ?_
    exact h.ordered.log c' hc' _ _ (hbetween.logged hl.logged) hl'.logged hl'.fresh
  · refine h.entries_pairwise fun c hc c' hc' hbetween l l' hl hl' => ?_
    rw [hl.security.2]
    exact Int.lt_of_le_of_lt hbetween.security hl'.security.1
  · refine pairwise_filter.mpr (h.entries_pairwise fun c hc c' hc' hbetween l l' hl hl' htenant htenant' => ?_)
    obtain ⟨_, hepoch⟩ := hl.tenant tenantID (of_decide_eq_true htenant)
    obtain ⟨hlt, hepoch'⟩ := hl'.tenant tenantID (of_decide_eq_true htenant')
    exact ⟨_, _, hepoch, hepoch', Int.lt_of_le_of_lt (hbetween.tenant tenantID) hlt⟩
  · unfold agentEntries
    rw [pairwise_filterMap]
    refine (h.log_grows.filter _).imp_of_mem fun {c c'} hc hc' hbetween l hl l' hl' => ?_
    obtain ⟨hmem, hcounts⟩ := mem_filter.mp hc
    obtain ⟨hmem', hcounts'⟩ := mem_filter.mp hc'
    obtain ⟨_, hepoch, _⟩ := (appends_of_history hhistory hmem hl).agent tenantID agentID hcounts
    obtain ⟨hlt, hepoch', _⟩ := (appends_of_history hhistory hmem' hl').agent tenantID agentID hcounts'
    exact ⟨_, _, hepoch, hepoch', Int.lt_of_le_of_lt (hbetween.agent tenantID agentID) hlt⟩

/-- The order of the log by numbers is the order of commits and of the security epochs; the epochs of a
tenant and of an agent increase over their own entries; and an entry that was not committed when a reader
looked has a greater number than all that were. -/
theorem revocation_log_order (h : RevocationReachable a) (hlater : RevocationLater a b) :
    OrderedLog a.1.log a.1.committed.entries.rows ∧
      ∀ l ∈ b.1.committed.entries.rows, l ∉ a.1.committed.entries.rows →
        ∀ seen ∈ a.1.committed.entries.rows, seen.sequence < l.sequence := by
  refine ⟨h.orderedLog, fun l hl hnew seen hseen => ?_⟩
  refine h.above hlater ⟨seen, hseen, rfl⟩ ⟨l, hl, rfl⟩ fun ⟨old, hold, hsequence⟩ => hnew ?_
  have hkept := (h.grows hlater).entries old hold
  rw [← b.1.committed.entries.eq_of_key_eq hkept hl hsequence]
  exact hold

namespace RevocationSample

def instant (seconds : Int) : Time := ⟨1000000000 * seconds, true⟩

/-- Identifiers of version 7, which can be read. -/
def identifier (n : Nat) : ID := .ofNat (0x70008000000000000000 + n)

def tenant : ID := identifier 1

def evidence (n : Nat) : RevocationEvidence :=
  ⟨.ofNat (100 + n), .ofNat (200 + n), .ofNat (300 + n), .ofNat (400 + n), .ofNat (500 + n), .ofNat (600 + n),
    ["allowed"]⟩

def revocation (n : Nat) (owner : Option ID) (scope : RevocationScope) (target : String)
    (effective created : Int) : Revocation :=
  ⟨.ofNat (700 + n), .ofNat 3, owner, scope, target, "compromised", "", "change-1", instant effective, none,
    instant created⟩

/-- Change `n` creates a revocation of the sample tenant, effective when it is created. -/
def create (n : Nat) (scope : RevocationScope) (target : String) (created sequence : Int) :
    RevocationRequest :=
  .create tenant (revocation n (some tenant) scope target created created) (evidence n) sequence tenant

/-- Change `n` lifts the revocation that change `created` created. -/
def lift (n created : Nat) (changed sequence : Int) : RevocationRequest :=
  .lift tenant ⟨.ofNat (700 + created), .ofNat 3, some tenant, "recovered", "change-2", instant changed⟩
    (evidence n) sequence tenant

@[irreducible] def after (requests : List RevocationRequest) : RevocationSystem × Int :=
  logSequence.serve revocationProgram requests RevocationStore.initial [] 0

theorem reachable (requests : List RevocationRequest) : RevocationReachable (after requests) := by
  unfold after
  exact Sequence.steps_serve requests _ _ _

theorem later (requests more : List RevocationRequest) :
    RevocationLater (after requests) (after (requests ++ more)) := by
  unfold after
  exact Sequence.steps_serve_append requests more _ _ _

/-- An agent is revoked, then a principal; number 2 was drawn in vain. -/
def revoked : List RevocationRequest :=
  [.registerAgent tenant (identifier 9), create 1 .agentID (identifier 9).string 10 1,
    create 2 .principalID "principal-1" 20 3]

def lifted : List RevocationRequest := [lift 3 1 30 4]

theorem revoked_lifted :
    (after revoked).1.committed.entries.rows.map RevocationEntry.sequence = [1, 3] ∧
      (after (revoked ++ lifted)).1.committed.entries.rows.map RevocationEntry.sequence = [1, 3, 4] := by
  decide +kernel

end RevocationSample

open RevocationSample

theorem revocation_log_order_lifted :
    (after revoked).1.committed.entries.rows.map
        RevocationEntry.sequence = [1, 3] ∧
      (after (revoked ++ lifted)).1.committed.entries.rows.map
        RevocationEntry.sequence = [1, 3, 4] ∧
      OrderedLog (after revoked).1.log
        (after revoked).1.committed.entries.rows :=
  ⟨revoked_lifted.1, revoked_lifted.2,
    (revocation_log_order (reachable _)
      (later revoked lifted)).1⟩

end AgentGovernor
