import AgentGovernor.TransactionReplay

/-! Numbers that sessions draw from a counter of the database. A number is never given back, and a session
may commit long after it drew, so numbers as such are not in commit order. They are when each is drawn
under one lock that excludes itself. What a session has drawn is kept among its locks. -/

namespace AgentGovernor.Transaction

open List

variable {σ κ ω ε α β ρ Req : Type} {E : Engine σ κ ω}

/-- Which locks are drawn numbers, and the lock under which they are drawn. -/
structure Sequence (E : Engine σ κ ω) where
  number : κ → Option Int
  gate : κ
  exclusive : E.conflict gate gate

namespace Sequence

variable (S : Sequence E)

def numbers (held : List κ) : List Int := held.filterMap S.number

theorem numbers_append (held held' : List κ) :
    S.numbers (held ++ held') = S.numbers held ++ S.numbers held' := filterMap_append

/-! ### Bodies that draw under the gate -/

/-- Each statement that draws finds the gate held, and the body ends with locks that meet `post`. -/
def DrawsUnder : Tx σ κ ω ε α → List κ → (List κ → Prop) → Prop
  | .pure _, held, post => post held
  | .throw _, _, _ => True
  | .peek next, held, post => ∀ v, DrawsUnder (next v) held post
  | .stmt locks _ next, held, post => ∀ v,
      (S.numbers (locks v) ≠ [] → S.gate ∈ held) ∧ DrawsUnder (next v) (locks v ++ held) post

/-- The body draws nothing. -/
def Quiet : Tx σ κ ω ε α → Prop
  | .pure _ => True
  | .throw _ => True
  | .peek next => ∀ v, Quiet (next v)
  | .stmt locks _ next => ∀ v, S.numbers (locks v) = [] ∧ Quiet (next v)

variable {S} {held : List κ} {post : List κ → Prop}

theorem Quiet.bind {p : Tx σ κ ω ε α} {k : α → Tx σ κ ω ε β} (h : S.Quiet p) (hk : ∀ a, S.Quiet (k a)) :
    S.Quiet (p.bind k) := by
  induction p with
  | pure value => exact hk value
  | throw error => trivial
  | peek next ih => exact fun v => ih v (h v)
  | stmt locks writes next ih => exact fun v => ⟨(h v).1, ih v (h v).2⟩

theorem quiet_snapshot {read : σ → α} : S.Quiet (Tx.snapshot read : Tx σ κ ω ε α) := fun _ => trivial

theorem quiet_require {c : Prop} [Decidable c] {error : ε} :
    S.Quiet (Tx.require c error : Tx σ κ ω ε Unit) := by
  unfold Tx.require
  split_ifs <;> trivial

theorem quiet_orThrow {value : Option α} {error : ε} :
    S.Quiet (Tx.orThrow value error : Tx σ κ ω ε α) := by
  cases value <;> trivial

theorem quiet_ofExcept {value : Except ε α} : S.Quiet (Tx.ofExcept value : Tx σ κ ω ε α) := by
  cases value <;> trivial

theorem quiet_perform {locks : List κ} {act : σ → Except ε (α × List ω)} (h : S.numbers locks = []) :
    S.Quiet (Tx.perform (fun _ => locks) act) := by
  refine fun v => ⟨h, ?_⟩
  dsimp only
  split <;> trivial

/-- A body that draws nothing ends with the locks that were held, and maybe more. -/
theorem Quiet.drawsUnder {p : Tx σ κ ω ε α} (h : S.Quiet p)
    (hpost : ∀ held', held ⊆ held' → post held') : S.DrawsUnder p held post := by
  induction p generalizing held with
  | pure value => exact hpost held (List.Subset.refl _)
  | throw error => trivial
  | peek next ih => exact fun v => ih v (h v) hpost
  | stmt locks writes next ih =>
    refine fun v => ⟨fun hne => absurd (h v).1 hne, ih v (h v).2 fun held' hsub => ?_⟩
    exact hpost held' fun l hl => hsub (mem_append_right _ hl)

theorem DrawsUnder.mono {p : Tx σ κ ω ε α} {post' : List κ → Prop} (h : S.DrawsUnder p held post)
    (hpost : ∀ held', post held' → post' held') : S.DrawsUnder p held post' := by
  induction p generalizing held with
  | pure value => exact hpost held h
  | throw error => trivial
  | peek next ih => exact fun v => ih v (h v)
  | stmt locks writes next ih => exact fun v => ⟨(h v).1, ih v (h v).2⟩

theorem DrawsUnder.bind {p : Tx σ κ ω ε α} {k : α → Tx σ κ ω ε β}
    (h : S.DrawsUnder p held fun held' => ∀ a, S.DrawsUnder (k a) held' post) :
    S.DrawsUnder (p.bind k) held post := by
  induction p generalizing held with
  | pure value => exact h value
  | throw error => trivial
  | peek next ih => exact fun v => ih v (h v)
  | stmt locks writes next ih => exact fun v => ⟨(h v).1, ih v (h v).2⟩

theorem Quiet.draws {p : Tx σ κ ω ε α} {k : α → Tx σ κ ω ε β} (h : S.Quiet p)
    (hk : ∀ a held', held ⊆ held' → S.DrawsUnder (k a) held' post) :
    S.DrawsUnder (p.bind k) held post :=
  DrawsUnder.bind (h.drawsUnder fun held' hsub a => hk a held' hsub)

theorem drawsUnder_perform {locks : List κ} {act : σ → Except ε (α × List ω)}
    (hdraws : S.numbers locks ≠ [] → S.gate ∈ held) (h : post (locks ++ held)) :
    S.DrawsUnder (Tx.perform (fun _ => locks) act) held post := by
  refine fun v => ⟨hdraws, ?_⟩
  dsimp only
  split
  · exact h
  · trivial

/-! ### Steps with a counter -/

variable (S) (program : Req → Tx σ κ ω ε ρ)

/-- A step of the sessions. What it draws lies above the counter, which it moves up to there or further:
draws that come to nothing leave gaps. -/
structure Step (a b : System σ κ ω ε ρ Req × Int) : Prop where
  step : E.Step program a.1 b.1
  counter : a.2 ≤ b.2
  drawn : ∀ i session, b.1.sessions i = some session → ∀ n ∈ S.numbers session.held,
    (∃ before, a.1.sessions i = some before ∧ n ∈ S.numbers before.held) ∨ (a.2 < n ∧ n ≤ b.2)

def Reaches (init : σ) : System σ κ ω ε ρ Req × Int → Prop :=
  Relation.ReflTransGen (S.Step program) (System.idle init [], 0)

variable {S program} {init : σ} {a b : System σ κ ω ε ρ Req × Int}

theorem Reaches.reaches (h : S.Reaches program init a) : E.Reaches program init a.1 :=
  Relation.ReflTransGen.lift Prod.fst (fun _ _ hstep => Step.step hstep) _ _ h

/-- A transitive relation that every commit establishes holds between a system and later ones. -/
theorem Reaches.relates (hprogram : E.Disciplined program) {R : σ → σ → Prop} (hrefl : ∀ s, R s s)
    (htrans : ∀ s t u, R s t → R t u → R s u)
    (hcommit : ∀ request response held s t, E.Exec (program request) [] s response held t → R s t)
    (h : S.Reaches program init a) (hlater : Relation.ReflTransGen (S.Step program) a b) :
    R a.1.committed b.1.committed :=
  Engine.Reaches.relates hprogram hrefl htrans (fun _ _ _ _ ⟨_, hexec⟩ => hcommit _ _ _ _ _ hexec)
    (Reaches.reaches h) (Relation.ReflTransGen.lift Prod.fst (fun _ _ hstep => Step.step hstep) _ _ hlater)

/-- A commit records numbers above those that were recorded. -/
def InOrder (recorded : σ → Int → Prop) (c : Commit σ ρ Req) : Prop :=
  ∀ m n, recorded c.before m → recorded c.after n → ¬recorded c.before n → m < n

variable (S) in
/-- Numbers are positive and not above the counter; those of open sessions lie above the recorded ones,
and whoever has one has the gate. -/
structure Ordered (recorded : σ → Int → Prop) (a : System σ κ ω ε ρ Req × Int) : Prop where
  body : ∀ i session, a.1.sessions i = some session → S.DrawsUnder session.body session.held fun _ => True
  gated : ∀ i session, a.1.sessions i = some session → S.numbers session.held ≠ [] →
    S.gate ∈ session.held
  nonneg : 0 ≤ a.2
  above : ∀ i session, a.1.sessions i = some session → ∀ n ∈ S.numbers session.held,
    0 < n ∧ n ≤ a.2 ∧ ∀ m, recorded a.1.committed m → m < n
  bounded : ∀ m, recorded a.1.committed m → 0 < m ∧ m ≤ a.2
  log : ∀ c ∈ a.1.log, InOrder recorded c

/-- Steps that commit nothing: it is enough to look at the sessions. -/
theorem Ordered.of_sessions {recorded : σ → Int → Prop} (h : S.Ordered recorded a)
    (hstep : S.Step program a b) (hcommitted : b.1.committed = a.1.committed) (hlog : b.1.log = a.1.log)
    (hsessions : ∀ i session, b.1.sessions i = some session → a.1.sessions i = some session ∨
      (S.DrawsUnder session.body session.held (fun _ => True) ∧
        (S.numbers session.held ≠ [] → S.gate ∈ session.held))) : S.Ordered recorded b where
  body i session hi := (hsessions i session hi).elim (h.body i session) And.left
  gated i session hi := (hsessions i session hi).elim (h.gated i session) And.right
  nonneg := Int.le_trans h.nonneg hstep.counter
  above i session hi n hn := by
    rw [hcommitted]
    have hcounter := hstep.counter
    have hnonneg := h.nonneg
    rcases hstep.drawn i session hi n hn with ⟨before, hbefore, hn⟩ | ⟨hlt, hle⟩
    · obtain ⟨hpos, hle, hm⟩ := h.above i before hbefore n hn
      exact ⟨hpos, by omega, hm⟩
    · refine ⟨by omega, hle, fun m hm => ?_⟩
      have hbound := (h.bounded m hm).2
      omega
  bounded m hm := by
    rw [hcommitted] at hm
    exact ⟨(h.bounded m hm).1, Int.le_trans (h.bounded m hm).2 hstep.counter⟩
  log := hlog ▸ h.log

section Order

variable {recorded : σ → Int → Prop} (hprogram : E.Disciplined program)
  (hdraws : ∀ request, S.DrawsUnder (program request) [] fun _ => True)
  (hrecorded : ∀ request response held s t, E.Exec (program request) [] s response held t →
    ∀ n, recorded t n → recorded s n ∨ n ∈ S.numbers held)

include hdraws hrecorded

theorem Ordered.step (hserial : a.1.Serial E program init) (hstep : S.Step program a b)
    (h : S.Ordered recorded a) : S.Ordered recorded b := by
  obtain ⟨sys, k⟩ := a
  obtain ⟨sys', k'⟩ := b
  have hnumbered := hstep
  obtain ⟨hmove, hcounter, _⟩ := hstep
  dsimp only at hmove hcounter hserial
  cases hmove with
  | start i request hfree =>
    refine h.of_sessions hnumbered rfl rfl fun j session hj => ?_
    obtain ⟨_, ⟨⟩⟩ | ⟨_, hj⟩ := System.sessions_of_set hj
    · exact Or.inr ⟨hdraws request, fun hne => absurd rfl hne⟩
    · exact Or.inl hj
  | read i session next hi hbody =>
    refine h.of_sessions hnumbered rfl rfl fun j other hj => ?_
    obtain ⟨_, ⟨⟩⟩ | ⟨_, hj⟩ := System.sessions_of_set hj
    · have hdraw := h.body i session hi
      rw [hbody] at hdraw
      exact Or.inr ⟨hdraw _, h.gated i session hi⟩
    · exact Or.inl hj
  | execute i session locks writes next hi hbody hgranted =>
    refine h.of_sessions hnumbered rfl rfl fun j other hj => ?_
    obtain ⟨_, ⟨⟩⟩ | ⟨_, hj⟩ := System.sessions_of_set hj
    · have hdraw := h.body i session hi
      rw [hbody] at hdraw
      refine Or.inr ⟨(hdraw _).2, fun hne => mem_append_right _ ?_⟩
      by_cases hlocks : S.numbers (locks (E.view sys session)) = []
      · rw [S.numbers_append, hlocks, nil_append] at hne
        exact h.gated i session hi hne
      · exact (hdraw _).1 hlocks
    · exact Or.inl hj
  | commit i session response hi hbody =>
    have hexec := hserial.commits hi hbody
    have hnew : ∀ n, recorded (E.view sys session) n → ¬recorded sys.committed n →
        n ∈ S.numbers session.held := fun n hn hold =>
      (hrecorded _ _ _ _ _ hexec n hn).resolve_left hold
    have hother : ∀ j other, (sys.set i none).sessions j = some other →
        j ≠ i ∧ sys.sessions j = some other :=
      fun j other hj => (System.sessions_of_set hj).resolve_left nofun
    refine ⟨fun j other hj => h.body j other (hother j other hj).2,
      fun j other hj => h.gated j other (hother j other hj).2, Int.le_trans h.nonneg hcounter,
      fun j other hj n hn => ?_, fun m hm => ?_, fun c hc => ?_⟩
    · obtain ⟨hji, hj⟩ := hother j other hj
      obtain ⟨hpos, hle, habove⟩ := h.above j other hj n hn
      refine ⟨hpos, Int.le_trans hle hcounter, fun m hm => ?_⟩
      by_cases hold : recorded sys.committed m
      · exact habove m hold
      · -- Two sessions with numbers would both have the gate.
        have hgate := h.gated i session hi (ne_nil_of_mem (hnew m hm hold))
        have hgate' := h.gated j other hj (ne_nil_of_mem hn)
        exact absurd S.exclusive
          (hserial.exclusive i j session other (Ne.symm hji) hi hj S.gate hgate S.gate hgate')
    · by_cases hold : recorded sys.committed m
      · exact ⟨(h.bounded m hold).1, Int.le_trans (h.bounded m hold).2 hcounter⟩
      · obtain ⟨hpos, hle, _⟩ := h.above i session hi m (hnew m hm hold)
        exact ⟨hpos, Int.le_trans hle hcounter⟩
    · rcases mem_append.mp hc with hc | hc
      · exact h.log c hc
      · cases mem_singleton.mp hc
        exact fun m n hm hn hold => (h.above i session hi n (hnew n hn hold)).2.2 m hm
  | vanish i =>
    exact h.of_sessions hnumbered rfl rfl fun j session hj =>
      Or.inl ((System.sessions_of_set hj).resolve_left nofun).2

include hprogram

theorem Reaches.ordered (hinit : ∀ n, ¬recorded init n) (h : S.Reaches program init a) :
    S.Ordered recorded a := by
  induction h with
  | refl =>
    refine ⟨?_, ?_, Int.le_refl 0, ?_, fun m hm => absurd hm (hinit m),
      fun c hc => absurd hc not_mem_nil⟩
    · rintro _ _ ⟨⟩
    · rintro _ _ ⟨⟩
    · rintro _ _ ⟨⟩
  | tail hreach hstep ih =>
    exact Ordered.step hdraws hrecorded (Engine.Reaches.serial hprogram (Reaches.reaches hreach)) hstep ih

/-- Whatever is recorded later lies above everything recorded before it. -/
theorem Reaches.above_recorded (hinit : ∀ n, ¬recorded init n)
    (hkept : ∀ request response held s t, E.Exec (program request) [] s response held t →
      ∀ n, recorded s n → recorded t n)
    (h : S.Reaches program init a) (hlater : Relation.ReflTransGen (S.Step program) a b) :
    ∀ m n, recorded a.1.committed m → recorded b.1.committed n → ¬recorded a.1.committed n → m < n := by
  induction hlater with
  | refl => exact fun _ n _ hn hnot => absurd hn hnot
  | @tail b c hab hstep ih =>
    have hreach : S.Reaches program init b := Relation.ReflTransGen.trans h hab
    have hkeep := Reaches.relates hprogram (R := fun s t => ∀ n, recorded s n → recorded t n)
      (fun _ _ => id) (fun _ _ _ hst htu n hn => htu n (hst n hn)) hkept h hab
    have hordered := Reaches.ordered hprogram hdraws hrecorded hinit (Relation.ReflTransGen.tail hreach hstep)
    have hserial := Engine.Reaches.serial hprogram (Reaches.reaches hreach)
    rcases hstep.step.commits hserial with hsame | ⟨request, response, held, hexec, hlog⟩
    · rw [hsame]
      exact ih
    · have hlast : InOrder recorded ⟨request, response, b.1.committed, c.1.committed⟩ :=
        hordered.log _ (hlog ▸ mem_append_right _ mem_cons_self)
      intro m n hm hn hnot
      by_cases hold : recorded b.1.committed n
      · exact ih m n hm hold hnot
      · exact hlast m n (hkeep m hm) hn hold

end Order

/-! ### Requests served one at a time -/

section Serve

theorem le_foldl_max (k : Int) (ns : List Int) : k ≤ ns.foldl max k := by
  induction ns generalizing k with
  | nil => exact Int.le_refl k
  | cons n ns ih => exact Int.le_trans (Int.le_max_left k n) (ih (max k n))

theorem mem_le_foldl_max (k : Int) {ns : List Int} {n : Int} (hn : n ∈ ns) : n ≤ ns.foldl max k := by
  induction ns generalizing k with
  | nil => cases hn
  | cons m ns ih =>
    rcases mem_cons.mp hn with rfl | hn
    · exact Int.le_trans (Int.le_max_right k n) (le_foldl_max _ ns)
    · exact ih _ hn

variable (S)

/-- The counter after a body that runs alone, if each of its draws lies above it. -/
def counterAfter : Tx σ κ ω ε α → σ → Int → Option Int
  | .pure _, _, k => some k
  | .throw _, _, _ => none
  | .peek next, s, k => counterAfter (next s) s k
  | .stmt locks writes next, s, k =>
    if ∀ n ∈ S.numbers (locks s), k < n then
      counterAfter (next s) (E.applyAll (writes s) s) ((S.numbers (locks s)).foldl max k)
    else none

variable {S}

theorem steps_of_run {start : System σ κ ω ε ρ Req × Int} {s t u : σ} {log : List (Commit σ ρ Req)} {request : Req} {r : ρ}
    {body : Tx σ κ ω ε ρ} {buffer : List ω} {held : List κ} {k k' : Int}
    (hu : u = E.applyAll buffer s) (hrun : E.run body u = .ok (r, t))
    (hcounter : S.counterAfter body u k = some k')
    (h : Relation.ReflTransGen (S.Step program) start
      ((System.idle s log).set 0 (some ⟨request, body, buffer, held⟩), k)) :
    Relation.ReflTransGen (S.Step program) start (System.idle t (log ++ [⟨request, r, s, t⟩]), k') := by
  induction body generalizing buffer held u k with
  | pure value =>
    simp only [Engine.run, Except.ok.injEq, Prod.mk.injEq] at hrun
    obtain ⟨rfl, rfl⟩ := hrun
    cases hcounter
    rw [hu]
    refine Relation.ReflTransGen.tail h ⟨Engine.step_commit_alone, Int.le_refl _, ?_⟩
    rintro _ _ ⟨⟩
  | throw error => simp [Engine.run] at hrun
  | peek next ih =>
    refine @ih u u buffer held k hu hrun hcounter ?_
    rw [hu]
    refine Relation.ReflTransGen.tail h
      ⟨Engine.step_read_alone, Int.le_refl _, fun i session hi n hn => Or.inl ?_⟩
    obtain ⟨rfl, ⟨⟩⟩ | ⟨_, ⟨⟩⟩ := System.sessions_of_set hi
    exact ⟨_, System.set_sessions_self _ _ _, hn⟩
  | stmt locks writes next ih =>
    simp only [counterAfter] at hcounter
    split_ifs at hcounter with hdraws
    refine @ih u _ (buffer ++ writes u) (locks u ++ held) _ ?_ hrun hcounter ?_
    · rw [E.applyAll_append, ← hu]
    · rw [hu] at hdraws ⊢
      refine Relation.ReflTransGen.tail h
        ⟨Engine.step_execute_alone, le_foldl_max _ _, fun i session hi n hn => ?_⟩
      obtain ⟨rfl, ⟨⟩⟩ | ⟨_, ⟨⟩⟩ := System.sessions_of_set hi
      dsimp only at hn
      rw [S.numbers_append] at hn
      rcases mem_append.mp hn with hn | hn
      · exact Or.inr ⟨hdraws n hn, mem_le_foldl_max _ hn⟩
      · exact Or.inl ⟨_, System.set_sessions_self _ _ _, hn⟩

variable (S program)

/-- Serve requests one after the other; one that fails or draws what is not above the counter leaves no
trace. -/
def serve : List Req → σ → List (Commit σ ρ Req) → Int → System σ κ ω ε ρ Req × Int
  | [], s, log, k => (.idle s log, k)
  | request :: rest, s, log, k =>
    match E.run (program request) s, S.counterAfter (program request) s k with
    | .ok (r, t), some k' => serve rest t (log ++ [⟨request, r, s, t⟩]) k'
    | _, _ => serve rest s log k

variable {S program}

theorem steps_serve (requests : List Req) (s : σ) (log : List (Commit σ ρ Req)) (k : Int) :
    Relation.ReflTransGen (S.Step program) (System.idle s log, k) (S.serve program requests s log k) := by
  induction requests generalizing s log k with
  | nil => exact Relation.ReflTransGen.refl
  | cons request rest ih =>
    simp only [serve]
    split
    · rename_i r t k' hrun hcounter
      have hstarted : Relation.ReflTransGen (S.Step program) (System.idle s log, k)
          ((System.idle s log).set 0 (some ⟨request, program request, [], []⟩), k) := by
        refine Relation.ReflTransGen.single
          ⟨.start _ 0 request rfl, Int.le_refl _, fun i session hi n hn => ?_⟩
        obtain ⟨_, ⟨⟩⟩ | ⟨_, ⟨⟩⟩ := System.sessions_of_set hi
        cases hn
      exact (steps_of_run (E.applyAll_nil s).symm hrun hcounter hstarted).trans (ih t _ k')
    · exact ih s log k

theorem steps_serve_append (requests more : List Req) (s : σ) (log : List (Commit σ ρ Req)) (k : Int) :
    Relation.ReflTransGen (S.Step program) (S.serve program requests s log k)
      (S.serve program (requests ++ more) s log k) := by
  induction requests generalizing s log k with
  | nil => exact steps_serve more s log k
  | cons request rest ih =>
    simp only [cons_append, serve]
    split
    · exact ih _ _ _
    · exact ih s log k

end Serve

end Sequence

end AgentGovernor.Transaction
