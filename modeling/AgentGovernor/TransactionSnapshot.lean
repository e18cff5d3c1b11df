import AgentGovernor.TransactionSystem

/-! What the first snapshot of a committed request saw. `Exec` only says that a snapshot and the database at the
commit are related by what others may do; here the snapshot is a database of the history itself, so that what
the commits in between did can be used. -/

namespace AgentGovernor.Transaction

open List

variable {σ κ ω ε ρ Req : Type} {E : Engine σ κ ω} {program : Req → Tx σ κ ω ε ρ} {init : σ}

/-- A session whose body starts with a snapshot has not taken it yet, or has seen a database of the history and
will commit what follows from that. -/
def Session.Seen (E : Engine σ κ ω) (program : Req → Tx σ κ ω ε ρ) (init : σ) (sys : System σ κ ω ε ρ Req)
    (session : Session σ κ ω ε ρ Req) : Prop :=
  ∀ next, program session.request = .peek next →
    (session.body = .peek next ∧ session.buffer = [] ∧ session.held = []) ∨
    ∃ early seen, early <+: sys.log ∧ E.History program init early seen ∧
      Session.Sound E (fun _ => next seen) sys.committed session

/-- Each commit whose body starts with a snapshot saw a database of the history before it. -/
def System.Witnessed (E : Engine σ κ ω) (program : Req → Tx σ κ ω ε ρ) (init : σ)
    (log : List (Commit σ ρ Req)) : Prop :=
  ∀ log₁ c log₂, log = log₁ ++ c :: log₂ → ∀ next, program c.request = .peek next →
    ∃ early seen held, early <+: log₁ ∧ E.History program init early seen ∧
      E.Exec (next seen) [] c.before c.response held c.after

theorem System.Witnessed.concat {log : List (Commit σ ρ Req)} {x : Commit σ ρ Req}
    (h : System.Witnessed E program init log)
    (hx : ∀ next, program x.request = .peek next → ∃ early seen held, early <+: log ∧
      E.History program init early seen ∧ E.Exec (next seen) [] x.before x.response held x.after) :
    System.Witnessed E program init (log ++ [x]) := by
  intro log₁ c log₂ hlog next hnext
  rcases eq_nil_or_concat log₂ with rfl | ⟨rest, last, rfl⟩
  · obtain ⟨rfl, hlast⟩ := append_inj' hlog rfl
    cases hlast
    exact hx next hnext
  · rw [concat_eq_append, ← cons_append, ← append_assoc] at hlog
    exact h log₁ c rest (append_inj' hlog rfl).1 next hnext

variable {session : Session σ κ ω ε ρ Req} {sys : System σ κ ω ε ρ Req}

/-- What a session has seen stays what it is while others commit. -/
theorem Session.Seen.interfere {sys' : System σ κ ω ε ρ Req}
    (h : session.Seen E program init sys) (hlog : sys.log <+: sys'.log)
    (hcommitted : E.Interference session.held sys.committed sys'.committed) :
    session.Seen E program init sys' := by
  intro next hnext
  rcases h next hnext with hfresh | ⟨early, seen, hprefix, hhistory, hsound⟩
  · exact Or.inl hfresh
  · exact Or.inr ⟨early, seen, hprefix.trans hlog, hhistory, hsound.interfere hcommitted⟩

variable {next : σ → Tx σ κ ω ε ρ}

theorem Session.Seen.read
    (h : session.Seen E program init sys) (hserial : sys.Serial E program init)
    {i : Nat} (hi : sys.sessions i = some session) (hbody : session.body = .peek next) :
    Session.Seen E program init sys { session with body := next (E.view sys session) } := by
  intro first hfirst
  rcases h first hfirst with ⟨hfresh, hbuffer, hheld⟩ | ⟨early, seen, hprefix, hhistory, hsound⟩
  · -- The first snapshot is the database of now.
    rw [hbody] at hfresh
    cases hfresh
    have hview : E.view sys session = sys.committed := by rw [Engine.view, hbuffer, Engine.applyAll_nil]
    have hwell := (hserial.sound i session hi).1
    rw [hbody] at hwell
    refine Or.inr ⟨sys.log, sys.committed, prefix_rfl, hserial.history, hwell _,
      fun t _ r held' u hexec => ?_⟩
    simpa only [hview, hbuffer, hheld, Engine.applyAll_nil] using hexec
  · exact Or.inr ⟨early, seen, hprefix, hhistory, hsound.read hbody⟩

theorem Session.Seen.execute
    {locks : σ → List κ} {writes : σ → List ω}
    (h : session.Seen E program init sys) (hbody : session.body = .stmt locks writes next) :
    Session.Seen E program init sys { session with
      body := next (E.view sys session)
      buffer := session.buffer ++ writes (E.view sys session)
      held := locks (E.view sys session) ++ session.held } := by
  intro first hfirst
  rcases h first hfirst with ⟨hfresh, _⟩ | ⟨early, seen, hprefix, hhistory, hsound⟩
  · rw [hbody] at hfresh
    cases hfresh
  · exact Or.inr ⟨early, seen, hprefix, hhistory, hsound.execute hbody⟩

/-- A session at its end commits what follows from what it saw. -/
theorem Session.Seen.commits {response : ρ}
    (h : session.Seen E program init sys) (hbody : session.body = .pure response)
    (hnext : program session.request = .peek next) : ∃ early seen held, early <+: sys.log ∧
      E.History program init early seen ∧
      E.Exec (next seen) [] sys.committed response held (E.view sys session) := by
  rcases h next hnext with ⟨hfresh, _⟩ | ⟨early, seen, hprefix, hhistory, hsound⟩
  · rw [hbody] at hfresh
    cases hfresh
  · refine ⟨early, seen, session.held, hprefix, hhistory, hsound.2 _ Relation.ReflTransGen.refl _ _ _ ?_⟩
    rw [hbody]
    exact ⟨rfl, rfl, rfl⟩

theorem System.seen_step (hprogram : E.Disciplined program) {sys' : System σ κ ω ε ρ Req}
    (hstep : E.Step program sys sys') (hserial : sys.Serial E program init)
    (hseen : ∀ i session, sys.sessions i = some session → session.Seen E program init sys)
    (hlog : System.Witnessed E program init sys.log) :
    (∀ i session, sys'.sessions i = some session → session.Seen E program init sys') ∧
      System.Witnessed E program init sys'.log := by
  -- Sessions other than the one that moves, when nothing is committed.
  have hothers : ∀ {i : Nat} {moved : Option (Session σ κ ω ε ρ Req)},
      (∀ session, moved = some session → session.Seen E program init sys) →
      ∀ j session, (sys.set i moved).sessions j = some session →
        session.Seen E program init (sys.set i moved) := by
    intro i moved hmoved j session hj
    obtain ⟨_, hsession⟩ | ⟨_, hj⟩ := System.sessions_of_set hj
    · exact hmoved session hsession
    · exact hseen j session hj
  cases hstep with
  | start i request hfree =>
    refine ⟨hothers fun session hsession => ?_, hlog⟩
    cases hsession
    exact fun next hnext => Or.inl ⟨hnext, rfl, rfl⟩
  | read i session next hi hbody =>
    refine ⟨hothers fun moved hmoved => ?_, hlog⟩
    cases hmoved
    exact (hseen i session hi).read hserial hi hbody
  | execute i session locks writes next hi hbody hgranted =>
    refine ⟨hothers fun moved hmoved => ?_, hlog⟩
    cases hmoved
    exact (hseen i session hi).execute hbody
  | commit i session response hi hbody =>
    refine ⟨fun j other hj => ?_, hlog.concat fun next hnext => (hseen i session hi).commits hbody hnext⟩
    obtain ⟨hother, hrely⟩ := hserial.interference hprogram hi hbody hj
    exact (hseen j other hother).interfere (prefix_append _ _) hrely
  | vanish i =>
    refine ⟨hothers fun session hsession => ?_, hlog⟩
    cases hsession

/-- What the first snapshot of a committed request saw is the database after an initial part of the history. -/
theorem Engine.Reaches.witnessed (hprogram : E.Disciplined program)
    (h : E.Reaches program init sys) : System.Witnessed E program init sys.log := by
  have hall : (∀ i session, sys.sessions i = some session → session.Seen E program init sys) ∧
      System.Witnessed E program init sys.log := by
    induction h with
    | refl =>
      refine ⟨fun i session hi => ?_, fun log₁ c log₂ hlog => ?_⟩
      · cases hi
      · cases log₁ <;> cases hlog
    | tail hpath hstep ih =>
      exact System.seen_step hprogram hstep (Engine.Reaches.serial hprogram hpath) ih.1 ih.2
  exact hall.2

theorem Engine.History.end_unique {log : List (Commit σ ρ Req)} {s t : σ} (h : E.History program init log s)
    (h' : E.History program init log t) : s = t := by
  cases h with
  | nil =>
    generalize hlog : ([] : List (Commit σ ρ Req)) = log at h'
    cases h' with
    | nil => rfl
    | snoc => simp at hlog
  | snoc => exact h'.concat.2.symm

/-- A transitive relation that the commits after an initial part establish holds between the database after that
part and the end. -/
theorem Engine.History.since_prefix {R : σ → σ → Prop} (hrefl : ∀ s, R s s)
    (htrans : ∀ s t u, R s t → R t u → R s u) {early later : List (Commit σ ρ Req)} {seen s : σ}
    (hseen : E.History program init early seen) (h : E.History program init (early ++ later) s)
    (hcommit : ∀ c ∈ later, R c.before c.after) : R seen s := by
  induction later using List.reverseRecOn generalizing s with
  | nil =>
    rw [append_nil] at h
    rw [Engine.History.end_unique hseen h]
    exact hrefl s
  | append_singleton rest last ih =>
    rw [← append_assoc] at h
    obtain ⟨hearlier, rfl⟩ := h.concat
    exact htrans _ _ _ (ih hearlier fun c hc => hcommit c (mem_append_left _ hc))
      (hcommit last (mem_append_right _ mem_cons_self))

end AgentGovernor.Transaction
