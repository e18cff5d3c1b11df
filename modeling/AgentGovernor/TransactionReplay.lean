import AgentGovernor.LedgerStatement

/-! Calls that only answer, and calls that accept more than others. Once a database has a property that
commits keep, some bodies write nothing and are bound to end in one way, whichever of the later databases
their statements see. `Tx.Concludes` says so of a body, and `concludes_of_later` of a session that serves
it among others. `Tx.Relaxes` compares two bodies that differ in what they reject. -/

namespace AgentGovernor.Transaction

open Ledger List

variable {σ κ ω ε α β ρ Req : Type}

/-- Whatever databases with a property its statements see, the body writes nothing and ends like this. -/
def Tx.Concludes (P : σ → Prop) (Q : Except ε α → Prop) : Tx σ κ ω ε α → Prop
  | .pure value => Q (.ok value)
  | .throw error => Q (.error error)
  | .peek next => ∀ s, P s → (next s).Concludes P Q
  | .stmt _ writes next => ∀ s, P s → writes s = [] ∧ (next s).Concludes P Q

namespace Tx.Concludes

variable {P : σ → Prop} {R : Except ε α → Prop} {Q : Except ε β → Prop}

theorem bind {p : Tx σ κ ω ε α} {k : α → Tx σ κ ω ε β} (h : p.Concludes P R)
    (hk : ∀ a, R (.ok a) → (k a).Concludes P Q) (herror : ∀ e, R (.error e) → Q (.error e)) :
    (p.bind k).Concludes P Q := by
  induction p with
  | pure value => exact hk value h
  | throw error => exact herror error h
  | peek next ih => exact fun s hs => ih s (h s hs)
  | stmt locks writes next ih => exact fun s hs => ⟨(h s hs).1, ih s (h s hs).2⟩

theorem snapshot {read : σ → α} {k : α → Tx σ κ ω ε β}
    (h : ∀ s, P s → (k (read s)).Concludes P Q) : ((Tx.snapshot read).bind k).Concludes P Q := h

theorem require {c : Prop} [Decidable c] {error : ε} {k : Unit → Tx σ κ ω ε β}
    (h : c → (k ()).Concludes P Q) (herror : ¬c → Q (.error error)) :
    ((Tx.require c error).bind k).Concludes P Q := by
  unfold Tx.require
  split_ifs with hc
  · exact h hc
  · exact herror hc

theorem orThrow {value : Option α} {error : ε} {k : α → Tx σ κ ω ε β}
    (h : ∀ a, value = some a → (k a).Concludes P Q) (herror : value = none → Q (.error error)) :
    ((Tx.orThrow value error).bind k).Concludes P Q := by
  cases value with
  | none => exact herror rfl
  | some a => exact h a rfl

theorem ofExcept {value : Except ε α} {k : α → Tx σ κ ω ε β}
    (h : ∀ a, value = .ok a → (k a).Concludes P Q) (herror : ∀ e, value = .error e → Q (.error e)) :
    ((Tx.ofExcept value).bind k).Concludes P Q := by
  cases value with
  | error e => exact herror e rfl
  | ok a => exact h a rfl

theorem select {locks : σ → List κ} {read : σ → Except ε α}
    (h : ∀ s, P s → R (read s)) : (Tx.select locks read : Tx σ κ ω ε α).Concludes P R := by
  intro s hs
  have hread := h s hs
  cases hvalue : read s with
  | ok a =>
    rw [hvalue] at hread
    simp only [hvalue, Except.map, true_and]
    exact hread
  | error e =>
    rw [hvalue] at hread
    simp only [hvalue, Except.map, true_and]
    exact hread

theorem acquire {locks : List κ} {k : Unit → Tx σ κ ω ε β} (h : (k ()).Concludes P Q) :
    ((Tx.acquire locks).bind k).Concludes P Q :=
  (select (R := fun r => r = .ok ()) fun _ _ => rfl).bind (fun _ _ => h) fun _ he => nomatch he

theorem lock {κ' ρ' : Type} [DecidableEq κ'] [Guarded ρ' κ] {E : Engine σ κ ω} {key : ρ' → κ'}
    {H : Handle E key} {locks : List κ} {k : κ'} {check : ρ' → Except ε α} {missing : ε} {W : ρ' → Prop}
    (hrow : ∀ s, P s → ∃ r, (H.table s).get k = some r ∧ W r) (hcheck : ∀ r, W r → R (check r)) :
    (H.lock locks k check missing).Concludes P R := by
  refine select fun s hs => ?_
  obtain ⟨r, hr, hpred⟩ := hrow s hs
  rw [hr]
  exact hcheck r hpred

/-- A conditional upsert that leaves the row as it is. -/
theorem upsertWhere {κ' ρ' : Type} [DecidableEq κ'] [Guarded ρ' κ] {E : Engine σ κ ω} {key : ρ' → κ'}
    {H : Handle E key} {locks : List κ} {k : κ'} {change : Option ρ' → Except ε (α × Option ρ')}
    (hrow : ∀ s, P s → ∃ a, change ((H.table s).get k) = .ok (a, none) ∧ R (.ok a)) :
    (H.upsertWhere locks k change).Concludes P R := by
  intro s hs
  obtain ⟨a, hchange, ha⟩ := hrow s hs
  simp only [hchange, true_and]
  exact ha

/-- Run alone, the body leaves the database as it is. -/
theorem run {p : Tx σ κ ω ε α} {E : Engine σ κ ω} {s : σ} (h : p.Concludes P R) (hs : P s) :
    ∃ outcome, R outcome ∧ E.run p s = outcome.map (·, s) := by
  induction p with
  | pure value => exact ⟨.ok value, h, rfl⟩
  | throw error => exact ⟨.error error, h, rfl⟩
  | peek next ih => exact ih s (h s hs)
  | stmt locks writes next ih =>
    obtain ⟨hwrites, hnext⟩ := h s hs
    obtain ⟨outcome, houtcome, hrun⟩ := ih s hnext
    refine ⟨outcome, houtcome, ?_⟩
    rw [Engine.run, hwrites]
    exact hrun

end Tx.Concludes

/-! ### What a call accepts -/

/-- The second body does what the first does, except that it may go on where the first is rejected. -/
def Tx.Relaxes : Tx σ κ ω ε α → Tx σ κ ω ε α → Prop
  | .pure value, q => q = .pure value
  | .throw _, _ => True
  | .peek next, q => ∃ next', q = .peek next' ∧ ∀ s, (next s).Relaxes (next' s)
  | .stmt locks writes next, q =>
    ∃ next', q = .stmt locks writes next' ∧ ∀ s, (next s).Relaxes (next' s)

namespace Tx.Relaxes

theorem refl (p : Tx σ κ ω ε α) : p.Relaxes p := by
  induction p with
  | pure value => exact rfl
  | throw error => trivial
  | peek next ih => exact ⟨next, rfl, ih⟩
  | stmt locks writes next ih => exact ⟨next, rfl, ih⟩

theorem bind {p q : Tx σ κ ω ε α} {k l : α → Tx σ κ ω ε β} (h : p.Relaxes q)
    (hk : ∀ a, (k a).Relaxes (l a)) : (p.bind k).Relaxes (q.bind l) := by
  induction p generalizing q with
  | pure value =>
    obtain rfl := h
    exact hk value
  | throw error => trivial
  | peek next ih =>
    obtain ⟨next', rfl, hnext⟩ := h
    exact ⟨_, rfl, fun s => ih s (hnext s)⟩
  | stmt locks writes next ih =>
    obtain ⟨next', rfl, hnext⟩ := h
    exact ⟨_, rfl, fun s => ih s (hnext s)⟩

/-- The same statements before two bodies. -/
theorem after (p : Tx σ κ ω ε α) {k l : α → Tx σ κ ω ε β} (hk : ∀ a, (k a).Relaxes (l a)) :
    (p.bind k).Relaxes (p.bind l) := (refl p).bind hk

theorem require {c c' : Prop} [Decidable c] [Decidable c'] {error error' : ε} (h : c → c') :
    (Tx.require c error : Tx σ κ ω ε Unit).Relaxes (.require c' error') := by
  unfold Tx.require
  split_ifs with hc hc'
  · exact rfl
  · exact absurd (h hc) hc'
  · trivial
  · trivial

/-- What the first body does alone, the second does. -/
theorem run {E : Engine σ κ ω} {p q : Tx σ κ ω ε α} (h : p.Relaxes q) {s : σ} {result : α × σ}
    (hp : E.run p s = .ok result) : E.run q s = .ok result := by
  induction p generalizing q s with
  | pure value =>
    obtain rfl := h
    exact hp
  | throw error => cases hp
  | peek next ih =>
    obtain ⟨next', rfl, hnext⟩ := h
    exact ih s (hnext s) hp
  | stmt locks writes next ih =>
    obtain ⟨next', rfl, hnext⟩ := h
    exact ih s (hnext s) hp

end Tx.Relaxes

variable {E : Engine σ κ ω} {program : Req → Tx σ κ ω ε ρ}

/-! ### Sessions -/

/-- Only the commit of a body that has ended with a response changes the database. -/
theorem Engine.Step.committed {sys sys' : System σ κ ω ε ρ Req} (h : E.Step program sys sys') :
    (sys'.committed = sys.committed ∧ sys'.log = sys.log) ∨
      ∃ i session response, sys.sessions i = some session ∧ session.body = .pure response ∧
        sys'.log = sys.log ++ [⟨session.request, response, sys.committed, sys'.committed⟩] := by
  cases h with
  | commit i session response hsession hdone => exact Or.inr ⟨i, session, response, hsession, hdone, rfl⟩
  | start => exact Or.inl ⟨rfl, rfl⟩
  | read => exact Or.inl ⟨rfl, rfl⟩
  | execute => exact Or.inl ⟨rfl, rfl⟩
  | vanish => exact Or.inl ⟨rfl, rfl⟩

/-- The session has written nothing, and if its body has ended, it has ended like this. -/
structure Session.Answers (session : Session σ κ ω ε ρ Req) (Q : Except ε ρ → Prop) : Prop where
  buffer : session.buffer = []
  ok : ∀ response, session.body = .pure response → Q (.ok response)
  error : ∀ error, session.body = .throw error → Q (.error error)

theorem Session.Answers.mono {session : Session σ κ ω ε ρ Req} {Q Q' : Except ε ρ → Prop}
    (h : session.Answers Q) (himp : ∀ outcome, Q outcome → Q' outcome) : session.Answers Q' :=
  ⟨h.buffer, fun response hdone => himp _ (h.ok response hdone),
    fun error hdone => himp _ (h.error error hdone)⟩

/-- The later systems. -/
abbrev Engine.Later (E : Engine σ κ ω) (program : Req → Tx σ κ ω ε ρ) :
    System σ κ ω ε ρ Req → System σ κ ω ε ρ Req → Prop :=
  Relation.ReflTransGen (E.Step program)

/-- A session that started after some point, of a request whose body concludes on the databases since
then, has written nothing, and what is left of its body concludes. -/
theorem concludes_of_later {P : σ → Prop} {Q : Except ε ρ → Prop} {sys sys' : System σ κ ω ε ρ Req}
    {i : Nat} {request : Req} (hidle : sys.sessions i = none) (hbody : (program request).Concludes P Q)
    (hlater : E.Later program sys sys')
    (hP : ∀ mid, E.Later program sys mid → E.Later program mid sys' → P mid.committed)
    {session : Session σ κ ω ε ρ Req} (hsession : sys'.sessions i = some session)
    (hrequest : session.request = request) :
    session.buffer = [] ∧ session.body.Concludes P Q := by
  induction hlater generalizing session with
  | refl =>
    rw [hidle] at hsession
    cases hsession
  | @tail mid sys' hpath hstep ih =>
    have hmid := hP mid hpath (Relation.ReflTransGen.single hstep)
    replace ih := fun {session} => @ih
      (fun between hfrom hto => hP between hfrom (hto.tail hstep)) session
    -- A step of another session leaves this one as it was.
    cases hstep with
    | start j request' hfree =>
      obtain ⟨_, ⟨⟩⟩ | ⟨_, hold⟩ := System.sessions_of_set hsession
      · subst hrequest
        exact ⟨rfl, hbody⟩
      · exact ih hold hrequest
    | read j old next hj hnext =>
      obtain ⟨rfl, ⟨⟩⟩ | ⟨_, hold⟩ := System.sessions_of_set hsession
      · obtain ⟨hbuffer, hconcludes⟩ := ih hj hrequest
        rw [hnext] at hconcludes
        refine ⟨hbuffer, ?_⟩
        rw [Engine.view, hbuffer]
        exact hconcludes mid.committed hmid
      · exact ih hold hrequest
    | execute j old locks writes next hj hnext _ =>
      obtain ⟨rfl, ⟨⟩⟩ | ⟨_, hold⟩ := System.sessions_of_set hsession
      · obtain ⟨hbuffer, hconcludes⟩ := ih hj hrequest
        rw [hnext] at hconcludes
        obtain ⟨hwrites, hrest⟩ := hconcludes mid.committed hmid
        rw [Engine.view, hbuffer]
        exact ⟨by rw [E.applyAll_nil, hwrites, append_nil], hrest⟩
      · exact ih hold hrequest
    | commit j old response hj hdone =>
      have hkept : (mid.set j none).sessions i = some session := hsession
      obtain ⟨_, ⟨⟩⟩ | ⟨_, hold⟩ := System.sessions_of_set hkept
      exact ih hold hrequest
    | vanish j =>
      obtain ⟨_, ⟨⟩⟩ | ⟨_, hold⟩ := System.sessions_of_set hsession
      exact ih hold hrequest

theorem answers_of_later {P : σ → Prop} {Q : Except ε ρ → Prop} {sys sys' : System σ κ ω ε ρ Req}
    {i : Nat} {request : Req} (hidle : sys.sessions i = none) (hbody : (program request).Concludes P Q)
    (hlater : E.Later program sys sys')
    (hP : ∀ mid, E.Later program sys mid → E.Later program mid sys' → P mid.committed)
    {session : Session σ κ ω ε ρ Req} (hsession : sys'.sessions i = some session)
    (hrequest : session.request = request) : session.Answers Q := by
  obtain ⟨hbuffer, hconcludes⟩ := concludes_of_later hidle hbody hlater hP hsession hrequest
  refine ⟨hbuffer, fun response hdone => ?_, fun error hdone => ?_⟩
  · rw [hdone] at hconcludes
    exact hconcludes
  · rw [hdone] at hconcludes
    exact hconcludes

/-- A session of the request that started after the first system has come to this end in the second. -/
def Engine.Ends (E : Engine σ κ ω) (program : Req → Tx σ κ ω ε ρ) (sys sys' : System σ κ ω ε ρ Req)
    (request : Req) (outcome : Except ε ρ) : Prop :=
  ∃ start i session, E.Later program sys start ∧ start.sessions i = none ∧ E.Later program start sys' ∧
    sys'.sessions i = some session ∧ session.request = request ∧ session.body = .ofExcept outcome

theorem Engine.Ends.later {sys sys' : System σ κ ω ε ρ Req} {request : Req} {outcome : Except ε ρ}
    (h : E.Ends program sys sys' request outcome) : E.Later program sys sys' := by
  obtain ⟨start, i, session, hstart, _, hlater, _⟩ := h
  exact hstart.trans hlater

theorem Engine.Ends.concludes {P : σ → Prop} {Q : Except ε ρ → Prop} {sys sys' : System σ κ ω ε ρ Req}
    {request : Req} {outcome : Except ε ρ} (h : E.Ends program sys sys' request outcome)
    (hbody : (program request).Concludes P Q)
    (hP : ∀ mid, E.Later program sys mid → E.Later program mid sys' → P mid.committed) : Q outcome := by
  obtain ⟨start, i, session, hstart, hidle, hlater, hsession, hrequest, hended⟩ := h
  have hanswers := answers_of_later hidle hbody hlater
    (fun mid hfrom hto => hP mid (hstart.trans hfrom) hto) hsession hrequest
  cases outcome with
  | ok response => exact hanswers.ok response hended
  | error error => exact hanswers.error error hended

/-- The log only grows. -/
theorem Engine.Later.log_subset {sys sys' : System σ κ ω ε ρ Req} (h : E.Later program sys sys') :
    sys.log ⊆ sys'.log := by
  induction h with
  | refl => exact List.Subset.refl _
  | @tail mid sys' _ hstep ih =>
    obtain ⟨_, hsame⟩ | ⟨_, _, _, _, _, hgrown⟩ := hstep.committed
    · rw [hsame]
      exact ih
    · rw [hgrown]
      exact fun c hc => mem_append_left _ (ih hc)

/-- A preorder that every commit meeting a condition respects relates a system to the later ones, as long
as their commits meet it. -/
theorem Engine.Reaches.relates_where (hprogram : E.Disciplined program) {R : σ → σ → Prop}
    {C : Commit σ ρ Req → Prop} (hrefl : ∀ s, R s s) (htrans : ∀ s t u, R s t → R t u → R s u)
    (hcommit : ∀ c : Commit σ ρ Req, E.Commits program c.request c.response c.before c.after → C c →
      R c.before c.after) {init : σ} {sys sys' : System σ κ ω ε ρ Req} (h : E.Reaches program init sys)
    (hlater : E.Later program sys sys') (hlog : ∀ c ∈ sys'.log, C c) :
    R sys.committed sys'.committed := by
  induction hlater with
  | refl => exact hrefl _
  | @tail mid sys' hpath hstep ih =>
    have hserial := Engine.Reaches.serial hprogram (Relation.ReflTransGen.trans h hpath)
    have hmid := ih fun c hc => hlog c (Engine.Later.log_subset (.single hstep) hc)
    cases hstep with
    | commit j session response hj hdone =>
      exact htrans _ _ _ hmid (hcommit ⟨session.request, response, _, _⟩
        ⟨_, hserial.commits hj hdone⟩ (hlog _ (mem_append_right _ mem_cons_self)))
    | start => exact hmid
    | read => exact hmid
    | execute => exact hmid
    | vanish => exact hmid

/-- A preorder that every commit respects relates a system to the later ones. -/
theorem Engine.Reaches.relates (hprogram : E.Disciplined program) {R : σ → σ → Prop}
    (hrefl : ∀ s, R s s) (htrans : ∀ s t u, R s t → R t u → R s u)
    (hcommit : ∀ request response s t, E.Commits program request response s t → R s t) {init : σ}
    {sys sys' : System σ κ ω ε ρ Req} (h : E.Reaches program init sys)
    (hlater : E.Later program sys sys') : R sys.committed sys'.committed :=
  Engine.Reaches.relates_where hprogram (C := fun _ => True) hrefl htrans
    (fun _ hc _ => hcommit _ _ _ _ hc) h hlater fun _ _ => trivial

/-- In a table whose rows are kept and of which no two are the same, every row was added by one commit,
and the others added none that is the same. -/
theorem Engine.History.once {κ' ρ' : Type} [DecidableEq κ'] {key : ρ' → κ'} (table : σ → Table key)
    (same : ρ' → ρ' → Prop) {init s : σ} {log : List (Commit σ ρ Req)}
    (h : E.History program init log s) (hinit : (table init).rows = [])
    (hkeeps : ∀ c ∈ log, (table c.before).Keeps Eq (table c.after))
    (hunique : ∀ x ∈ (table s).rows, ∀ y ∈ (table s).rows, same y x → y = x)
    (hfresh : ∀ c ∈ log, ∀ y ∈ (table c.after).rows, y ∉ (table c.before).rows →
      ∀ x ∈ (table c.before).rows, ¬same y x) {x : ρ'} (hx : x ∈ (table s).rows) :
    ∃ log₁ c log₂, log = log₁ ++ c :: log₂ ∧ x ∉ (table c.before).rows ∧ x ∈ (table c.after).rows ∧
      ∀ c' ∈ log₁ ++ log₂, ∀ y ∈ (table c'.after).rows, same y x → y ∈ (table c'.before).rows := by
  have hkept : ∀ y, ∀ c ∈ log, y ∈ (table c.before).rows → y ∈ (table c.after).rows := by
    intro y c hc hy
    obtain ⟨y', hy', rfl⟩ := hkeeps c hc _ y (Table.get_of_mem hy)
    exact Table.mem_of_get hy'
  obtain ⟨log₁, c, log₂, hlog, hbefore, hafter, hlog₁, hlog₂⟩ := h.appears
    (P := fun s => x ∈ (table s).rows) (hkept x) (fun hmem => by rw [hinit] at hmem; cases hmem) hx
  refine ⟨log₁, c, log₂, hlog, hbefore, hafter, fun c' hc' y hy hsame => ?_⟩
  by_contra hnew
  rcases mem_append.mp hc' with hc' | hc'
  · -- A row added before `x` is kept to the end, where it would be a second one.
    have hmem : c' ∈ log := hlog ▸ mem_append_left _ hc'
    have hend := h.since (R := fun s t => y ∈ (table s).rows → y ∈ (table t).rows) (fun _ => id)
      (fun _ _ _ hst htu hs => htu (hst hs)) (hkept y) c' hmem hy
    exact hlog₁ c' hc' (hunique x hx y hend hsame ▸ hy)
  · have hmem : c' ∈ log := hlog ▸ mem_append_right _ (mem_cons_of_mem _ hc')
    exact hfresh c' hmem y hy hnew x (hlog₂ c' hc') hsame

end AgentGovernor.Transaction
