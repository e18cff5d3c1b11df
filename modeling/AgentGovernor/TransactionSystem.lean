import Mathlib.Data.List.Induction
import AgentGovernor.TransactionProgram

/-! Any number of sessions serving requests against one database at once. Each statement of each
session is one step; writes stay in the session's buffer until it commits, locks are held until it
commits or vanishes, and a session may vanish at any point (an error, a lost connection, a crash). The
main result, `Reaches.history`, is that the commits of disciplined bodies form a serial history in
commit order. -/

namespace AgentGovernor.Transaction

open List

variable {σ κ ω ε ρ Req : Type}

/-- One request in progress: what is left of its body, its buffered writes and its locks. -/
structure Session (σ κ ω ε ρ Req : Type) where
  request : Req
  body : Tx σ κ ω ε ρ
  buffer : List ω
  held : List κ

/-- One committed transaction, with the database before and after it. -/
structure Commit (σ ρ Req : Type) where
  request : Req
  response : ρ
  before : σ
  after : σ

structure System (σ κ ω ε ρ Req : Type) where
  committed : σ
  sessions : Nat → Option (Session σ κ ω ε ρ Req)
  log : List (Commit σ ρ Req)

/-- A database with nobody connected. -/
def System.idle (s : σ) (log : List (Commit σ ρ Req)) : System σ κ ω ε ρ Req :=
  ⟨s, fun _ => none, log⟩

def System.set (sys : System σ κ ω ε ρ Req) (i : Nat) (session : Option (Session σ κ ω ε ρ Req)) :
    System σ κ ω ε ρ Req :=
  { sys with sessions := fun j => if j = i then session else sys.sessions j }

@[simp] theorem System.set_sessions_self (sys : System σ κ ω ε ρ Req) (i : Nat)
    (session : Option (Session σ κ ω ε ρ Req)) : (sys.set i session).sessions i = session := by
  simp [System.set]

variable {i : Nat}

theorem System.set_sessions_of_ne (sys : System σ κ ω ε ρ Req) {j : Nat}
    (session : Option (Session σ κ ω ε ρ Req)) (h : j ≠ i) :
    (sys.set i session).sessions j = sys.sessions j := by
  simp [System.set, h]

/-- A session after an update is the one put there, or another that was there before. -/
theorem System.sessions_of_set {sys : System σ κ ω ε ρ Req} {i j : Nat}
    {moved : Option (Session σ κ ω ε ρ Req)} {other : Session σ κ ω ε ρ Req}
    (h : (sys.set i moved).sessions j = some other) :
    j = i ∧ moved = some other ∨ j ≠ i ∧ sys.sessions j = some other := by
  by_cases hji : j = i
  · subst hji
    exact Or.inl ⟨rfl, System.set_sessions_self sys j moved ▸ h⟩
  · exact Or.inr ⟨hji, System.set_sessions_of_ne sys moved hji ▸ h⟩

theorem System.set_set (sys : System σ κ ω ε ρ Req) (i : Nat)
    (first second : Option (Session σ κ ω ε ρ Req)) :
    (sys.set i first).set i second = sys.set i second := by
  unfold System.set
  congr 1
  funext j
  by_cases h : j = i <;> simp [h]

theorem System.idle_set_none (s : σ) (log : List (Commit σ ρ Req)) (i : Nat) :
    (System.idle s log : System σ κ ω ε ρ Req).set i none = System.idle s log := by
  unfold System.set System.idle
  congr 1
  funext j
  split <;> rfl

namespace Engine

variable (E : Engine σ κ ω) (program : Req → Tx σ κ ω ε ρ)

/-- What a session's next statement reads: the committed database under its own writes. -/
def view (sys : System σ κ ω ε ρ Req) (session : Session σ κ ω ε ρ Req) : σ :=
  E.applyAll session.buffer sys.committed

/-- One step of one session. -/
inductive Step : System σ κ ω ε ρ Req → System σ κ ω ε ρ Req → Prop where
  | start (sys : System σ κ ω ε ρ Req) (i : Nat) (request : Req) (hfree : sys.sessions i = none) :
      Step sys (sys.set i (some ⟨request, program request, [], []⟩))
  | read (sys : System σ κ ω ε ρ Req) (i : Nat) (session : Session σ κ ω ε ρ Req)
      (next : σ → Tx σ κ ω ε ρ) (hi : sys.sessions i = some session)
      (hbody : session.body = .peek next) :
      Step sys (sys.set i (some { session with body := next (E.view sys session) }))
  | execute (sys : System σ κ ω ε ρ Req) (i : Nat) (session : Session σ κ ω ε ρ Req)
      (locks : σ → List κ) (writes : σ → List ω) (next : σ → Tx σ κ ω ε ρ)
      (hi : sys.sessions i = some session) (hbody : session.body = .stmt locks writes next)
      (hgranted : ∀ j other, j ≠ i → sys.sessions j = some other →
        E.Compatible (locks (E.view sys session)) other.held) :
      Step sys (sys.set i (some { session with
        body := next (E.view sys session)
        buffer := session.buffer ++ writes (E.view sys session)
        held := locks (E.view sys session) ++ session.held }))
  | commit (sys : System σ κ ω ε ρ Req) (i : Nat) (session : Session σ κ ω ε ρ Req) (response : ρ)
      (hi : sys.sessions i = some session) (hbody : session.body = .pure response) :
      Step sys { sys.set i none with
        committed := E.view sys session
        log := sys.log ++ [⟨session.request, response, sys.committed, E.view sys session⟩] }
  | vanish (sys : System σ κ ω ε ρ Req) (i : Nat) : Step sys (sys.set i none)

/-- The systems that sessions can lead to from an idle database. -/
def Reaches (init : σ) : System σ κ ω ε ρ Req → Prop :=
  Relation.ReflTransGen (E.Step program) (System.idle init [])

/-- The request can commit from `s` to `t` with this response. -/
def Commits (request : Req) (response : ρ) (s t : σ) : Prop :=
  ∃ held, E.Exec (program request) [] s response held t

/-- Every body is well locked, and its commits keep the promise. -/
structure Disciplined : Prop where
  wellLocked : ∀ request, E.WellLocked (program request) [] fun _ _ => True
  promise : ∀ request response held s t, E.Exec (program request) [] s response held t →
    E.promise held s t

/-- Commits one after the other. -/
inductive History (init : σ) : List (Commit σ ρ Req) → σ → Prop where
  | nil : History init [] init
  | snoc {log : List (Commit σ ρ Req)} {s t : σ} {request : Req} {response : ρ}
      (hlog : History init log s) (hcommit : E.Commits program request response s t) :
      History init (log ++ [⟨request, response, s, t⟩]) t

variable {E program}

variable {P : σ → Prop} {init s : σ} {log : List (Commit σ ρ Req)}

/-- A property that holds at first and that every commit meeting a condition keeps holds after every
history of such commits, and before and after each of them. -/
theorem History.invariant_where {C : Commit σ ρ Req → Prop} (hinit : P init)
    (hstep : ∀ request response s t, E.Commits program request response s t →
      C ⟨request, response, s, t⟩ → P s → P t)
    (h : E.History program init log s)
    (hlog : ∀ c ∈ log, C c) :
    P s ∧ ∀ c ∈ log, P c.before ∧ P c.after ∧
      E.Commits program c.request c.response c.before c.after := by
  induction h with
  | nil => exact ⟨hinit, fun c hc => absurd hc not_mem_nil⟩
  | snoc _ hcommit ih =>
    obtain ⟨hs, hbefore⟩ := ih fun c hc => hlog c (mem_append_left _ hc)
    have ht := hstep _ _ _ _ hcommit (hlog _ (mem_append_right _ mem_cons_self)) hs
    refine ⟨ht, fun c hc => ?_⟩
    rcases mem_append.mp hc with hc | hc
    · exact hbefore c hc
    · cases mem_singleton.mp hc
      exact ⟨hs, ht, hcommit⟩

/-- A property that holds at first and that every commit keeps holds after every history. -/
theorem History.invariant (hinit : P init)
    (hstep : ∀ request response s t, E.Commits program request response s t → P s → P t)
    (h : E.History program init log s) :
    P s ∧ ∀ c ∈ log, P c.before ∧ P c.after ∧
      E.Commits program c.request c.response c.before c.after :=
  h.invariant_where (C := fun _ => True) hinit
    (fun request response s t hcommit _ hs => hstep request response s t hcommit hs)
    fun _ _ => trivial

variable {c : Commit σ ρ Req}

theorem History.commits
    (h : E.History program init log s) (hc : c ∈ log) :
    E.Commits program c.request c.response c.before c.after :=
  ((h.invariant (P := fun _ => True) trivial fun _ _ _ _ _ _ => trivial).2 c hc).2.2

/-- The last commit of a history led from its prefix to its end. -/
theorem History.concat
    (h : E.History program init (log ++ [c]) s) : E.History program init log c.before ∧ s = c.after := by
  generalize hlog : log ++ [c] = whole at h
  cases h with
  | nil => simp at hlog
  | snoc hearlier _ =>
    obtain ⟨rfl, hlast⟩ := append_inj' hlog rfl
    cases hlast
    exact ⟨hearlier, rfl⟩

variable {log₁ log₂ : List (Commit σ ρ Req)}

/-- The commits before one of a history are a history that leads to it. -/
theorem History.before
    (h : E.History program init (log₁ ++ c :: log₂) s) : E.History program init log₁ c.before := by
  induction log₂ using List.reverseRecOn generalizing s with
  | nil => exact h.concat.1
  | append_singleton rest last ih =>
    rw [← cons_append, ← append_assoc] at h
    exact ih h.concat.1

variable {R : σ → σ → Prop}

/-- A transitive relation that the commits after one establish holds between it and the end. -/
theorem History.since_commit (hrefl : ∀ s, R s s)
    (htrans : ∀ s t u, R s t → R t u → R s u)
    (h : E.History program init (log₁ ++ c :: log₂) s) (hcommit : ∀ x ∈ log₂, R x.before x.after) :
    R c.after s := by
  induction log₂ using List.reverseRecOn generalizing s with
  | nil => exact h.concat.2 ▸ hrefl _
  | append_singleton rest last ih =>
    rw [← cons_append, ← append_assoc] at h
    obtain ⟨hearlier, rfl⟩ := h.concat
    exact htrans _ _ _ (ih hearlier fun x hx => hcommit x (mem_append_left _ hx))
      (hcommit last (mem_append_right _ mem_cons_self))

/-- One that every commit establishes holds between each of them and the end. -/
theorem History.since (hrefl : ∀ s, R s s)
    (htrans : ∀ s t u, R s t → R t u → R s u)
    (h : E.History program init log s) (hcommit : ∀ c ∈ log, R c.before c.after) :
    ∀ c ∈ log, R c.after s := by
  intro c hc
  obtain ⟨log₁, log₂, rfl⟩ := append_of_mem hc
  exact h.since_commit hrefl htrans fun x hx =>
    hcommit x (mem_append_right _ (mem_cons_of_mem _ hx))

/-- One that the commits between two establish holds between the two. -/
theorem History.between (hrefl : ∀ s, R s s)
    (htrans : ∀ s t u, R s t → R t u → R s u) {log₃ : List (Commit σ ρ Req)}
    {c' : Commit σ ρ Req} (h : E.History program init (log₁ ++ c :: (log₂ ++ c' :: log₃)) s)
    (hcommit : ∀ x ∈ log₂, R x.before x.after) : R c.after c'.before := by
  rw [← cons_append, ← append_assoc] at h
  exact h.before.since_commit hrefl htrans hcommit

/-- One that every commit establishes holds between any two, in commit order. -/
theorem History.pairwise (hrefl : ∀ s, R s s)
    (htrans : ∀ s t u, R s t → R t u → R s u)
    (h : E.History program init log s) (hcommit : ∀ c ∈ log, R c.before c.after) :
    log.Pairwise fun c c' => R c.after c'.before := by
  induction h with
  | nil => exact .nil
  | snoc hlog _ ih =>
    have hearlier := fun c hc => hcommit c (mem_append_left _ hc)
    refine pairwise_append.mpr ⟨ih hearlier, pairwise_singleton _ _, fun c hc c' hc' => ?_⟩
    cases mem_singleton.mp hc'
    exact hlog.since hrefl htrans hearlier c hc

/-- A property that holds at the end but not at first was last brought about by one commit, and has held
since. -/
theorem History.appears_last
    (h : E.History program init log s) (hinit : ¬P init) (hs : P s) :
    ∃ log₁ c log₂, log = log₁ ++ c :: log₂ ∧ ¬P c.before ∧ P c.after ∧
      ∀ c' ∈ log₂, P c'.before ∧ P c'.after := by
  induction h with
  | nil => exact absurd hs hinit
  | @snoc log s t request response hlog hcommit ih =>
    by_cases hbefore : P s
    · obtain ⟨log₁, c, log₂, rfl, hc, hc', hlog₂⟩ := ih hbefore
      refine ⟨log₁, c, log₂ ++ [⟨request, response, s, t⟩], by simp, hc, hc', fun c' hmem => ?_⟩
      rcases mem_append.mp hmem with hmem | hmem
      · exact hlog₂ c' hmem
      · cases mem_singleton.mp hmem
        exact ⟨hbefore, hs⟩
    · exact ⟨log, ⟨request, response, s, t⟩, [], rfl, hbefore, hs,
        fun c' hmem => absurd hmem not_mem_nil⟩

/-- One that commits keep fails up to the commit that brought it about. -/
theorem History.appears
    (h : E.History program init log s) (hkeep : ∀ c ∈ log, P c.before → P c.after) (hinit : ¬P init)
    (hs : P s) : ∃ log₁ c log₂, log = log₁ ++ c :: log₂ ∧ ¬P c.before ∧ P c.after ∧
      (∀ c' ∈ log₁, ¬P c'.after) ∧ ∀ c' ∈ log₂, P c'.before := by
  obtain ⟨log₁, c, log₂, rfl, hc, hc', hlog₂⟩ := h.appears_last hinit hs
  refine ⟨log₁, c, log₂, rfl, hc, hc', fun x hx hafter => hc ?_, fun x hx => (hlog₂ x hx).1⟩
  exact h.before.since (R := fun s t => P s → P t) (fun _ => id) (fun _ _ _ hst htu hs => htu (hst hs))
    (fun y hy => hkeep y (mem_append_left _ hy)) x hx hafter

/-! ### Credentials -/

section Credentials

variable {α : Type} {given : Commit σ ρ Req → List α} {used : Req → List α} {log : List (Commit σ ρ Req)}

/-- Whatever a request uses was given by an earlier commit. -/
def UsesGiven (given : Commit σ ρ Req → List α) (used : Req → List α) (log : List (Commit σ ρ Req)) : Prop :=
  ∀ log₁ x log₂, log = log₁ ++ x :: log₂ → ∀ a ∈ used x.request, ∃ y ∈ log₁, a ∈ given y

variable {x : Commit σ ρ Req}

theorem UsesGiven.initial (h : UsesGiven given used (log ++ [x])) :
    UsesGiven given used log := fun log₁ y log₂ hlog =>
  h log₁ y (log₂ ++ [x]) (by rw [hlog, append_assoc, cons_append])

theorem UsesGiven.last (h : UsesGiven given used (log ++ [x])) {a : α}
    (ha : a ∈ used x.request) : ∃ y ∈ log, a ∈ given y := h log x [] rfl a ha

/-- The same, with what was given so far. -/
def usesOnly [DecidableEq α] (given : Commit σ ρ Req → List α) (used : Req → List α) :
    List α → List (Commit σ ρ Req) → Bool
  | _, [] => true
  | seen, x :: rest =>
    (used x.request).all (seen.contains ·) && usesOnly given used (given x ++ seen) rest

theorem usesOnly_iff [DecidableEq α] {seen : List α} : usesOnly given used seen log = true ↔
    ∀ log₁ x log₂, log = log₁ ++ x :: log₂ → ∀ a ∈ used x.request,
      a ∈ seen ∨ ∃ y ∈ log₁, a ∈ given y := by
  induction log generalizing seen with
  | nil => simp [usesOnly]
  | cons first rest ih =>
    simp only [usesOnly, Bool.and_eq_true, List.all_eq_true, contains_iff_mem, ih]
    constructor
    · rintro ⟨hfirst, hrest⟩ log₁ x log₂ hlog a ha
      rcases cons_eq_append_iff.mp hlog with ⟨rfl, hhead⟩ | ⟨tail, rfl, hrest'⟩
      · cases hhead
        exact Or.inl (hfirst a ha)
      · rcases hrest tail x log₂ hrest' a ha with hseen | ⟨y, hy, hgiven⟩
        · rcases mem_append.mp hseen with hgiven | hseen
          · exact Or.inr ⟨first, mem_cons_self, hgiven⟩
          · exact Or.inl hseen
        · exact Or.inr ⟨y, mem_cons_of_mem _ hy, hgiven⟩
    · intro h
      refine ⟨fun a ha => ?_, fun log₁ x log₂ hlog a ha => ?_⟩
      · rcases h [] first rest rfl a ha with hseen | ⟨_, hy, _⟩
        · exact hseen
        · cases hy
      · rcases h (first :: log₁) x log₂ (by rw [hlog, cons_append]) a ha with hseen | ⟨y, hy, hgiven⟩
        · exact Or.inl (mem_append_right _ hseen)
        · rcases mem_cons.mp hy with rfl | hy
          · exact Or.inl (mem_append_left _ hgiven)
          · exact Or.inr ⟨y, hy, hgiven⟩

instance [DecidableEq α] : Decidable (UsesGiven given used log) :=
  decidable_of_iff (usesOnly given used [] log = true) (by simp [usesOnly_iff, UsesGiven])

end Credentials

/-- The outcome of a locking statement is the same at the later commit. -/
theorem stable_interference {locks : σ → List κ} {writes : σ → List ω} {next : σ → Tx σ κ ω ε ρ}
    {held : List κ} {post : ρ → List κ → Prop}
    (hwell : E.WellLocked (.stmt locks writes next) held post) {v v' : σ} (hv : ¬(next v).Failed)
    (h : E.Interference (locks v ++ held) v v') :
    locks v' = locks v ∧ writes v' = writes v ∧ next v' = next v := by
  induction h with
  | refl => exact ⟨rfl, rfl, rfl⟩
  | tail _ hstep ih =>
    obtain ⟨hl, hw, hn⟩ := ih
    obtain ⟨_, hstable, _⟩ := hwell _ (hn ▸ hv)
    obtain ⟨hl', hw', hn'⟩ := hstable _ (hl.symm ▸ hstep)
    exact ⟨hl'.trans hl, hw'.trans hw, hn'.trans hn⟩

end Engine

variable {E : Engine σ κ ω} {program : Req → Tx σ κ ω ε ρ}

/-- A session in a system: it is well locked, and whatever it commits to after the commits of the
others is a commit of its whole request. -/
def Session.Sound (E : Engine σ κ ω) (program : Req → Tx σ κ ω ε ρ) (s : σ)
    (session : Session σ κ ω ε ρ Req) : Prop :=
  E.WellLocked session.body session.held (fun _ _ => True) ∧
  ∀ t, E.Interference session.held s t → ∀ r held' u,
    E.Exec session.body session.held (E.applyAll session.buffer t) r held' u →
    E.Exec (program session.request) [] t r held' u

variable {s t : σ} {session : Session σ κ ω ε ρ Req}

theorem Session.Sound.interfere
    (h : Session.Sound E program s session) (hst : E.Interference session.held s t) :
    Session.Sound E program t session :=
  ⟨h.1, fun u htu => h.2 u (hst.trans htu)⟩

variable {next : σ → Tx σ κ ω ε ρ}

theorem Session.Sound.read
    (h : Session.Sound E program s session) (hbody : session.body = .peek next) :
    Session.Sound E program s
      { session with body := next (E.applyAll session.buffer s) } := by
  obtain ⟨hwell, hexec⟩ := h
  rw [hbody] at hwell hexec
  refine ⟨hwell _, fun t hst r held' u hnext => hexec t hst r held' u ?_⟩
  exact ⟨E.applyAll session.buffer s, hst.applyAll session.buffer, hnext⟩

theorem Session.Sound.execute {locks : σ → List κ}
    {writes : σ → List ω} (h : Session.Sound E program s session)
    (hbody : session.body = .stmt locks writes next) :
    Session.Sound E program s { session with
      body := next (E.applyAll session.buffer s)
      buffer := session.buffer ++ writes (E.applyAll session.buffer s)
      held := locks (E.applyAll session.buffer s) ++ session.held } := by
  obtain ⟨hwell, hexec⟩ := h
  rw [hbody] at hwell hexec
  by_cases hfailed : (next (E.applyAll session.buffer s)).Failed
  · -- A failed body is well locked and commits nothing.
    cases hnext : next (E.applyAll session.buffer s) with
    | throw error => exact ⟨trivial, fun _ _ _ _ _ hthrow => absurd hthrow id⟩
    | pure value => rw [hnext] at hfailed; exact absurd hfailed id
    | peek next' => rw [hnext] at hfailed; exact absurd hfailed id
    | stmt locks' writes' next' => rw [hnext] at hfailed; exact absurd hfailed id
  · refine ⟨(hwell _ hfailed).2.2, fun t hst r held' u hnext => ?_⟩
    have hview := hst.applyAll session.buffer
    obtain ⟨hl, hw, hn⟩ := Engine.stable_interference hwell hfailed hview
    apply hexec t (hst.mono (subset_append_right _ _)) r held' u
    simp only [Engine.Exec, hl, hw, hn]
    rw [← E.applyAll_append]
    exact hnext

/-- Locks of different sessions never conflict. -/
def System.Exclusive (E : Engine σ κ ω) (sys : System σ κ ω ε ρ Req) : Prop :=
  ∀ i j first second, i ≠ j → sys.sessions i = some first → sys.sessions j = some second →
    E.Compatible first.held second.held

variable {sys : System σ κ ω ε ρ Req}

theorem System.Exclusive.set (h : sys.Exclusive E)
    (hcompat : ∀ j other, j ≠ i → sys.sessions j = some other →
      E.Compatible session.held other.held) :
    (sys.set i (some session)).Exclusive E := by
  intro a b first second hab ha hb
  obtain ⟨rfl, ⟨⟩⟩ | ⟨hai, hfirst⟩ := System.sessions_of_set ha
  · obtain ⟨rfl, _⟩ | ⟨hba, hsecond⟩ := System.sessions_of_set hb
    · exact absurd rfl hab
    · exact hcompat b second hba hsecond
  · obtain ⟨rfl, ⟨⟩⟩ | ⟨_, hsecond⟩ := System.sessions_of_set hb
    · exact (hcompat a first hai hfirst).symm
    · exact h a b first second hab hfirst hsecond

theorem System.Exclusive.set_none (h : sys.Exclusive E) (i : Nat) :
    (sys.set i none).Exclusive E := by
  intro a b first second hab ha hb
  obtain ⟨_, ⟨⟩⟩ | ⟨_, ha⟩ := System.sessions_of_set ha
  obtain ⟨_, ⟨⟩⟩ | ⟨_, hb⟩ := System.sessions_of_set hb
  exact h a b first second hab ha hb

/-- What every reachable system satisfies. -/
structure System.Serial (E : Engine σ κ ω) (program : Req → Tx σ κ ω ε ρ) (init : σ)
    (sys : System σ κ ω ε ρ Req) : Prop where
  exclusive : sys.Exclusive E
  sound : ∀ i session, sys.sessions i = some session →
    Session.Sound E program sys.committed session
  history : E.History program init sys.log sys.committed

variable {init : σ}

theorem System.Serial.set
    (h : sys.Serial E program init)
    (hcompat : ∀ j other, j ≠ i → sys.sessions j = some other →
      E.Compatible session.held other.held)
    (hsound : Session.Sound E program sys.committed session) :
    (sys.set i (some session)).Serial E program init := by
  refine ⟨h.exclusive.set hcompat, fun j other hj => ?_, h.history⟩
  obtain ⟨_, ⟨⟩⟩ | ⟨_, hj⟩ := System.sessions_of_set hj
  · exact hsound
  · exact h.sound j other hj

/-- A session at its end commits its whole request. -/
theorem System.Serial.commits (h : sys.Serial E program init)
    {response : ρ} (hi : sys.sessions i = some session)
    (hbody : session.body = .pure response) :
    E.Exec (program session.request) [] sys.committed response session.held (E.view sys session) := by
  apply (h.sound i session hi).2 _ Relation.ReflTransGen.refl
  rw [hbody]
  exact ⟨rfl, rfl, rfl⟩

/-- To the other sessions that commit is interference. -/
theorem System.Serial.interference (h : sys.Serial E program init) (hprogram : E.Disciplined program)
    {response : ρ} (hi : sys.sessions i = some session) (hbody : session.body = .pure response)
    {j : Nat} {other : Session σ κ ω ε ρ Req} (hj : (sys.set i none).sessions j = some other) :
    sys.sessions j = some other ∧
      E.Interference other.held sys.committed (E.view sys session) := by
  obtain ⟨_, ⟨⟩⟩ | ⟨hji, hj⟩ := System.sessions_of_set hj
  have hwhole := h.commits hi hbody
  exact ⟨hj, .single ⟨session.held, h.exclusive i j _ _ (Ne.symm hji) hi hj,
    (Engine.exec_guarantee (hprogram.wellLocked session.request) hwhole).1,
    hprogram.promise _ _ _ _ _ hwhole⟩⟩

variable {sys' : System σ κ ω ε ρ Req}

theorem System.Serial.step (hprogram : E.Disciplined program)
    (hstep : E.Step program sys sys')
    (h : sys.Serial E program init) : sys'.Serial E program init := by
  cases hstep with
  | start i request hfree =>
    refine h.set (fun _ _ _ _ a ha => absurd ha not_mem_nil) ?_
    exact ⟨hprogram.wellLocked request, fun _ _ _ _ _ hexec => hexec⟩
  | read i session next hi hbody =>
    refine h.set (fun j other hj hother => ?_) ((h.sound i session hi).read hbody)
    exact h.exclusive i j session other (Ne.symm hj) hi hother
  | execute i session locks writes next hi hbody hgranted =>
    refine h.set (fun j other hj hother => ?_) ((h.sound i session hi).execute hbody)
    exact (hgranted j other hj hother).append
      (h.exclusive i j _ _ (Ne.symm hj) hi hother)
  | commit i session response hi hbody =>
    have hwhole := h.commits hi hbody
    refine ⟨h.exclusive.set_none i, fun j other hj => ?_, h.history.snoc ⟨_, hwhole⟩⟩
    obtain ⟨hother, hrely⟩ := h.interference hprogram hi hbody hj
    exact (h.sound j other hother).interfere hrely
  | vanish i =>
    refine ⟨h.exclusive.set_none i, fun j other hj => ?_, h.history⟩
    obtain ⟨_, ⟨⟩⟩ | ⟨_, hj⟩ := System.sessions_of_set hj
    exact h.sound j other hj

theorem Engine.Reaches.serial (hprogram : E.Disciplined program)
    (h : E.Reaches program init sys) : sys.Serial E program init := by
  induction h with
  | refl =>
    refine ⟨fun _ _ _ _ _ hi => ?_, fun _ _ hi => ?_, Engine.History.nil⟩
    · cases hi
    · cases hi
  | tail _ hstep ih => exact System.Serial.step hprogram hstep ih

/-- The commits of any interleaving of disciplined bodies are a serial history in commit order. -/
theorem Engine.Reaches.history (hprogram : E.Disciplined program)
    (h : E.Reaches program init sys) :
    E.History program init sys.log sys.committed :=
  (Engine.Reaches.serial hprogram h).history

/-- A step either leaves the database, or commits a whole request. -/
theorem Engine.Step.commits (h : E.Step program sys sys')
    (hserial : sys.Serial E program init) :
    sys'.committed = sys.committed ∨ ∃ request response held,
      E.Exec (program request) [] sys.committed response held sys'.committed ∧
      sys'.log = sys.log ++ [⟨request, response, sys.committed, sys'.committed⟩] := by
  cases h with
  | start => exact Or.inl rfl
  | read => exact Or.inl rfl
  | execute => exact Or.inl rfl
  | commit i session response hi hbody => exact Or.inr ⟨_, _, _, hserial.commits hi hbody, rfl⟩
  | vanish => exact Or.inl rfl

/-! ### Requests served one at a time -/

variable {log : List (Commit σ ρ Req)}

variable {r : ρ} {request : Req}

section Alone

variable {buffer : List ω} {held : List κ}

/-! The steps of a session with the database to itself. -/

theorem Engine.step_commit_alone {value : ρ} :
    E.Step program ((System.idle s log).set 0 (some ⟨request, .pure value, buffer, held⟩))
      (System.idle (E.applyAll buffer s) (log ++ [⟨request, value, s, E.applyAll buffer s⟩])) := by
  have hstep := @Engine.Step.commit σ κ ω ε ρ Req E program
    ((System.idle s log).set 0 (some ⟨request, .pure value, buffer, held⟩)) 0 _ value
    (System.set_sessions_self _ _ _) rfl
  rwa [System.set_set, System.idle_set_none] at hstep

theorem Engine.step_read_alone {next : σ → Tx σ κ ω ε ρ} :
    E.Step program ((System.idle s log).set 0 (some ⟨request, .peek next, buffer, held⟩))
      ((System.idle s log).set 0 (some ⟨request, next (E.applyAll buffer s), buffer, held⟩)) := by
  have hstep := @Engine.Step.read σ κ ω ε ρ Req E program
    ((System.idle s log).set 0 (some ⟨request, .peek next, buffer, held⟩)) 0 _ next
    (System.set_sessions_self _ _ _) rfl
  rwa [System.set_set] at hstep

theorem Engine.step_execute_alone {locks : σ → List κ} {writes : σ → List ω} {next : σ → Tx σ κ ω ε ρ} :
    E.Step program ((System.idle s log).set 0 (some ⟨request, .stmt locks writes next, buffer, held⟩))
      ((System.idle s log).set 0 (some ⟨request, next (E.applyAll buffer s),
        buffer ++ writes (E.applyAll buffer s), locks (E.applyAll buffer s) ++ held⟩)) := by
  have hstep := @Engine.Step.execute σ κ ω ε ρ Req E program
    ((System.idle s log).set 0 (some ⟨request, .stmt locks writes next, buffer, held⟩)) 0 _
    locks writes next (System.set_sessions_self _ _ _) rfl (by
      intro j other hj hother
      rw [System.set_sessions_of_ne _ _ hj] at hother
      cases hother)
  rwa [System.set_set] at hstep

/-- So it gets through its body. -/
theorem Engine.reaches_of_run {body : Tx σ κ ω ε ρ} {u : σ}
    (hu : u = E.applyAll buffer s) (hrun : E.run body u = .ok (r, t))
    (h : E.Reaches program init
      ((System.idle s log).set 0 (some ⟨request, body, buffer, held⟩))) :
    E.Reaches program init (System.idle t (log ++ [⟨request, r, s, t⟩])) := by
  induction body generalizing buffer held u with
  | pure value =>
    simp only [Engine.run, Except.ok.injEq, Prod.mk.injEq] at hrun
    obtain ⟨rfl, rfl⟩ := hrun
    rw [hu]
    exact Relation.ReflTransGen.tail h step_commit_alone
  | throw error => simp [Engine.run] at hrun
  | peek next ih =>
    refine @ih u buffer held u hu hrun ?_
    rw [hu]
    exact Relation.ReflTransGen.tail h step_read_alone
  | stmt locks writes next ih =>
    refine @ih u (buffer ++ writes u) (locks u ++ held) _ ?_ hrun ?_
    · rw [E.applyAll_append, ← hu]
    · rw [hu]
      exact Relation.ReflTransGen.tail h step_execute_alone

end Alone

theorem Engine.Reaches.serve
    (h : E.Reaches program init (System.idle s log)) (hrun : E.run (program request) s = .ok (r, t)) :
    E.Reaches program init (System.idle t (log ++ [⟨request, r, s, t⟩])) :=
  Engine.reaches_of_run (E.applyAll_nil s).symm hrun
    (Relation.ReflTransGen.tail h (Engine.Step.start _ 0 request rfl))

/-- Serve requests one after the other; a request that fails leaves no trace. -/
def Engine.serve (E : Engine σ κ ω) (program : Req → Tx σ κ ω ε ρ) :
    List Req → σ → List (Commit σ ρ Req) → σ × List (Commit σ ρ Req)
  | [], s, log => (s, log)
  | request :: rest, s, log =>
    match E.run (program request) s with
    | .ok (r, t) => Engine.serve E program rest t (log ++ [⟨request, r, s, t⟩])
    | .error _ => Engine.serve E program rest s log

theorem Engine.reaches_serve (requests : List Req)
    (h : E.Reaches program init (System.idle s log)) :
    E.Reaches program init
      (System.idle (E.serve program requests s log).1 (E.serve program requests s log).2) := by
  induction requests generalizing s log with
  | nil => exact h
  | cons request rest ih =>
    simp only [Engine.serve]
    cases hrun : E.run (program request) s with
    | error error => exact ih h
    | ok result =>
      obtain ⟨r, t⟩ := result
      exact ih (h.serve hrun)

end AgentGovernor.Transaction
