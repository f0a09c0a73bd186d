import DiepLab.Library.StatementProgram
import Mathlib.Data.List.Basic

/-!
Interleaved statement programs.

A configuration is a shared state and the programs of the requests that are
being served. An event lets one of them issue its next statement, admits a
new request, or lets the surroundings act; a schedule is a list of events, so
quantifying over schedules is quantifying over interleavings and over
arrivals. `Cooperative.run` is the rule: if every program that may arrive is
proved by `wp` under the same transitive `rely`, and every statement issued
according to its `needs` moves the state along `rely`, then so does the whole
schedule, and all of its statements are issued according to their `needs`.
-/

namespace StatementProgram

variable {Stmt : Type} {Resp : Stmt → Type} {ε α C σ Req Env : Type}

/-- The shared state and the requests in service, oldest first. -/
structure Config {Stmt : Type} (Resp : Stmt → Type) (ε α σ : Type) where
  state : σ
  threads : List (Prog Resp ε α)

inductive Event (C Req Env : Type) where
  /-- The `i`-th request issues its next statement. -/
  | act (i : ℕ) (c : C)
  /-- A new request arrives. -/
  | spawn (r : Req)
  /-- The surroundings change the state. -/
  | env (a : Env)

section Step

variable (sem : C → (q : Stmt) → σ → Except ε (Resp q) × σ)
variable (serve : Req → Prog Resp ε α) (envStep : Env → σ → σ)

namespace Config

/-- One event. A finished request has nothing left to do. -/
def step (cfg : Config Resp ε α σ) : Event C Req Env → Config Resp ε α σ
  | .act i c =>
      match cfg.threads[i]? with
      | some (.stmt q k) =>
          { state := (sem c q cfg.state).2
            threads := cfg.threads.set i (k (sem c q cfg.state).1) }
      | _ => cfg
  | .spawn r => { cfg with threads := cfg.threads ++ [serve r] }
  | .env a => { cfg with state := envStep a cfg.state }

/-- A whole schedule. -/
def run (cfg : Config Resp ε α σ) (schedule : List (Event C Req Env)) : Config Resp ε α σ :=
  schedule.foldl (step sem serve envStep) cfg

/-- The statement that an event issues, if any, satisfies `P` where it is
issued. -/
def Issuing (P : C → Stmt → σ → Prop) (cfg : Config Resp ε α σ) : Event C Req Env → Prop
  | .act i c =>
      match cfg.threads[i]? with
      | some (.stmt q _) => P c q cfg.state
      | _ => True
  | _ => True

/-- Every statement of the schedule satisfies `P` where it is issued. -/
def AllSteps (P : C → Stmt → σ → Prop) :
    Config Resp ε α σ → List (Event C Req Env) → Prop
  | _, [] => True
  | cfg, e :: schedule =>
      cfg.Issuing P e ∧ AllSteps P (cfg.step sem serve envStep e) schedule

instance (P : C → Stmt → σ → Prop) [∀ c q s, Decidable (P c q s)] (cfg : Config Resp ε α σ)
    (e : Event C Req Env) : Decidable (cfg.Issuing P e) := by
  unfold Issuing
  split
  · split
    · infer_instance
    · infer_instance
  · infer_instance

instance decidableAllSteps (P : C → Stmt → σ → Prop) [∀ c q s, Decidable (P c q s)] :
    (cfg : Config Resp ε α σ) → (schedule : List (Event C Req Env)) →
      Decidable (cfg.AllSteps sem serve envStep P schedule)
  | _, [] => isTrue trivial
  | cfg, e :: schedule =>
      have := decidableAllSteps P (cfg.step sem serve envStep e) schedule
      inferInstanceAs (Decidable (cfg.Issuing P e ∧ _))

/-- A beginning of a schedule has the steps of the schedule. -/
theorem AllSteps.take {P : C → Stmt → σ → Prop} {cfg : Config Resp ε α σ}
    {schedule : List (Event C Req Env)} (h : cfg.AllSteps sem serve envStep P schedule) (n : ℕ) :
    cfg.AllSteps sem serve envStep P (schedule.take n) := by
  induction schedule generalizing cfg n with
  | nil => simpa using h
  | cons e schedule ih =>
      cases n with
      | zero => trivial
      | succ n => exact ⟨h.1, ih h.2 n⟩

/-- Two conditions that agree where the statements are issued. -/
theorem AllSteps.congr {A P P' : C → Stmt → σ → Prop}
    (hP : ∀ c q s, A c q s → (P c q s ↔ P' c q s)) {cfg : Config Resp ε α σ}
    {schedule : List (Event C Req Env)} (h : cfg.AllSteps sem serve envStep A schedule) :
    cfg.AllSteps sem serve envStep P schedule ↔ cfg.AllSteps sem serve envStep P' schedule := by
  induction schedule generalizing cfg with
  | nil => exact Iff.rfl
  | cons e schedule ih =>
      refine and_congr ?_ (ih h.2)
      cases e with
      | act i c =>
          have hissue := h.1
          simp only [Issuing] at hissue ⊢
          cases hi : cfg.threads[i]? with
          | none => exact Iff.rfl
          | some p =>
              cases p with
              | ret a => exact Iff.rfl
              | raise e => exact Iff.rfl
              | stmt q k =>
                  rw [hi] at hissue
                  exact hP c q cfg.state hissue
      | spawn r => exact Iff.rfl
      | env a => exact Iff.rfl

theorem AllSteps.mono {P P' : C → Stmt → σ → Prop} (hP : ∀ c q s, P c q s → P' c q s)
    {cfg : Config Resp ε α σ} {schedule : List (Event C Req Env)}
    (h : cfg.AllSteps sem serve envStep P schedule) :
    cfg.AllSteps sem serve envStep P' schedule :=
  (AllSteps.congr sem serve envStep (fun c q s hs => iff_of_true hs (hP c q s hs)) h).mp h

theorem allSteps_of_forall {P : C → Stmt → σ → Prop} (h : ∀ c q s, P c q s)
    (cfg : Config Resp ε α σ) (schedule : List (Event C Req Env)) :
    cfg.AllSteps sem serve envStep P schedule := by
  induction schedule generalizing cfg with
  | nil => trivial
  | cons e schedule ih =>
      refine ⟨?_, ih _⟩
      cases e with
      | act i c =>
          simp only [Issuing]
          split
          · exact h _ _ _
          · trivial
      | spawn r => trivial
      | env a => trivial

/-- When only statements of one kind are issued, it is enough to compare two
conditions on these. -/
theorem allSteps_congr {Good : Stmt → Prop} {P P' : C → Stmt → σ → Prop}
    (hP : ∀ c q s, Good q → (P c q s ↔ P' c q s)) (hserve : ∀ r, (serve r).Issues Good)
    {cfg : Config Resp ε α σ} (hcfg : ∀ p ∈ cfg.threads, p.Issues Good)
    (schedule : List (Event C Req Env)) :
    cfg.AllSteps sem serve envStep P schedule ↔ cfg.AllSteps sem serve envStep P' schedule := by
  induction schedule generalizing cfg with
  | nil => exact Iff.rfl
  | cons e schedule ih =>
      cases e with
      | act i c =>
          simp only [AllSteps, Issuing, step]
          cases hi : cfg.threads[i]? with
          | none => exact and_congr Iff.rfl (ih hcfg)
          | some p =>
              have hp := hcfg p (List.mem_of_getElem? hi)
              cases p with
              | ret a => exact and_congr Iff.rfl (ih hcfg)
              | raise e => exact and_congr Iff.rfl (ih hcfg)
              | stmt q k =>
                  refine and_congr (hP c q cfg.state hp.1) (ih fun p' hp' => ?_)
                  rcases List.mem_or_eq_of_mem_set hp' with hp' | rfl
                  · exact hcfg p' hp'
                  · exact hp.2 _
      | spawn r =>
          refine and_congr Iff.rfl (ih fun p hp => ?_)
          rcases List.mem_append.mp hp with hp | hp
          · exact hcfg p hp
          · rw [List.mem_singleton.mp hp]
            exact hserve r
      | env a => exact and_congr Iff.rfl (ih hcfg)

/-- **Exact steps.** When a statement that is admitted keeps what holds of the
state exactly if it meets `P`, the schedules of admitted statements that keep it
are those whose statements all meet `P`. -/
theorem always_iff_allSteps_of_admitted {A P : C → Stmt → σ → Prop} {I : σ → Prop}
    (hstmt : ∀ c q s, A c q s → I s → (I (sem c q s).2 ↔ P c q s))
    (henv : ∀ a s, I s → I (envStep a s)) {cfg : Config Resp ε α σ} (hI : I cfg.state)
    (schedule : List (Event C Req Env)) (hA : cfg.AllSteps sem serve envStep A schedule) :
    (∀ n, I (cfg.run sem serve envStep (schedule.take n)).state) ↔
      cfg.AllSteps sem serve envStep P schedule := by
  have hstep (cfg : Config Resp ε α σ) (e : Event C Req Env) (hA : cfg.Issuing A e)
      (hI : I cfg.state) : I (cfg.step sem serve envStep e).state ↔ cfg.Issuing P e := by
    cases e with
    | act i c =>
        simp only [Config.Issuing, Config.step] at hA ⊢
        cases hi : cfg.threads[i]? with
        | none => exact iff_true_intro hI
        | some p =>
            cases p with
            | ret a => exact iff_true_intro hI
            | raise e => exact iff_true_intro hI
            | stmt q k =>
                rw [hi] at hA
                exact hstmt c q cfg.state hA hI
    | spawn r => exact iff_true_intro hI
    | env a => exact iff_true_intro (henv a cfg.state hI)
  induction schedule generalizing cfg with
  | nil => exact iff_of_true (fun n => by simpa [run] using hI) trivial
  | cons e schedule ih =>
      constructor
      · intro h
        have hnext : I (cfg.step sem serve envStep e).state := h 1
        exact ⟨(hstep cfg e hA.1 hI).mp hnext, (ih hnext hA.2).mp fun n => h (n + 1)⟩
      · rintro ⟨hissue, hrest⟩ n
        have hnext := (hstep cfg e hA.1 hI).mpr hissue
        cases n with
        | zero => exact hI
        | succ n => exact (ih hnext hA.2).mpr hrest n

theorem always_iff_allSteps {P : C → Stmt → σ → Prop} {I : σ → Prop}
    (hstmt : ∀ c q s, I s → (I (sem c q s).2 ↔ P c q s)) (henv : ∀ a s, I s → I (envStep a s))
    {cfg : Config Resp ε α σ} (hI : I cfg.state) (schedule : List (Event C Req Env)) :
    (∀ n, I (cfg.run sem serve envStep (schedule.take n)).state) ↔
      cfg.AllSteps sem serve envStep P schedule :=
  always_iff_allSteps_of_admitted sem serve envStep (fun c q s _ => hstmt c q s) henv hI schedule
    (allSteps_of_forall sem serve envStep (fun _ _ _ => trivial) cfg schedule)

/-- One event moves the state along `R` exactly if its statement meets `P`. -/
theorem moves_iff_issuing {P : C → Stmt → σ → Prop} {R : σ → σ → Prop} (hrefl : ∀ s, R s s)
    (hstmt : ∀ c q s, R s (sem c q s).2 ↔ P c q s) (henv : ∀ a s, R s (envStep a s))
    (cfg : Config Resp ε α σ) (e : Event C Req Env) :
    R cfg.state (cfg.step sem serve envStep e).state ↔ cfg.Issuing P e := by
  cases e with
  | act i c =>
      simp only [Config.Issuing, Config.step]
      cases cfg.threads[i]? with
      | none => exact iff_true_intro (hrefl _)
      | some p =>
          cases p with
          | ret a => exact iff_true_intro (hrefl _)
          | raise e => exact iff_true_intro (hrefl _)
          | stmt q k => exact hstmt c q cfg.state
  | spawn r => exact iff_true_intro (hrefl _)
  | env a => exact iff_true_intro (henv a cfg.state)

/-- **Exact single moves.** When a statement moves the state along `R` exactly if
it meets `P`, the schedules each of whose events moves the state so are those
whose statements all meet `P`. -/
theorem each_iff_allSteps {P : C → Stmt → σ → Prop} {R : σ → σ → Prop} (hrefl : ∀ s, R s s)
    (hstmt : ∀ c q s, R s (sem c q s).2 ↔ P c q s) (henv : ∀ a s, R s (envStep a s))
    (cfg : Config Resp ε α σ) (schedule : List (Event C Req Env)) :
    (∀ n, R (cfg.run sem serve envStep (schedule.take n)).state
        (cfg.run sem serve envStep (schedule.take (n + 1))).state) ↔
      cfg.AllSteps sem serve envStep P schedule := by
  induction schedule generalizing cfg with
  | nil => exact iff_of_true (fun n => by simpa [run] using hrefl cfg.state) trivial
  | cons e schedule ih =>
      have hfirst := moves_iff_issuing sem serve envStep hrefl hstmt henv cfg e
      constructor
      · intro h
        exact ⟨hfirst.mp (h 0), (ih _).mp fun n => h (n + 1)⟩
      · rintro ⟨hissue, hrest⟩ n
        cases n with
        | zero => exact hfirst.mpr hissue
        | succ n => exact (ih _).mpr hrest n

/-- **Exact moves.** When a statement moves the state along `R` exactly if it
meets `P`, the schedules along which the state only moves so are those whose
statements all meet `P`. -/
theorem along_iff_allSteps {P : C → Stmt → σ → Prop} {R : σ → σ → Prop} (hrefl : ∀ s, R s s)
    (htrans : ∀ a b c, R a b → R b c → R a c)
    (hstmt : ∀ c q s, R s (sem c q s).2 ↔ P c q s) (henv : ∀ a s, R s (envStep a s))
    (cfg : Config Resp ε α σ) (schedule : List (Event C Req Env)) :
    (∀ n m, n ≤ m → R (cfg.run sem serve envStep (schedule.take n)).state
        (cfg.run sem serve envStep (schedule.take m)).state) ↔
      cfg.AllSteps sem serve envStep P schedule := by
  rw [← each_iff_allSteps sem serve envStep hrefl hstmt henv cfg schedule]
  refine ⟨fun h n => h n (n + 1) (Nat.le_succ n), fun h n m hnm => ?_⟩
  induction hnm with
  | refl => exact hrefl _
  | step _ ih => exact htrans _ _ _ ih (h _)

/-- Every request in service is proved from the present state on. -/
def Proved (D : Rules Stmt C σ) (cfg : Config Resp ε α σ) : Prop :=
  D.rely cfg.state cfg.state ∧ ∀ p ∈ cfg.threads, wp sem D p (fun _ _ => True) cfg.state

end Config

end Step

section Pool

variable {sem : C → (q : Stmt) → σ → Except ε (Resp q) × σ}
variable {serve : Req → Prog Resp ε α} {envStep : Env → σ → σ} {D : Rules Stmt C σ}

/-- What the participants of a pool owe each other. -/
structure Cooperative (sem : C → (q : Stmt) → σ → Except ε (Resp q) × σ)
    (serve : Req → Prog Resp ε α) (envStep : Env → σ → σ) (D : Rules Stmt C σ) : Prop where
  trans : ∀ a b c, D.rely a b → D.rely b c → D.rely a c
  self : ∀ a b, D.rely a b → D.rely b b
  stmt : ∀ c q s, D.rely s s → D.admits c q s → D.needs c q s → D.rely s (sem c q s).2
  env : ∀ a s, D.rely s s → D.rely s (envStep a s)
  serve : ∀ r s, D.rely s s → wp sem D (serve r) (fun _ _ => True) s

theorem Cooperative.proved_interfere (h : Cooperative sem serve envStep D)
    {p : Prog Resp ε α} {s s' : σ} (hp : wp sem D p (fun _ _ => True) s)
    (hs : D.rely s s') : wp sem D p (fun _ _ => True) s' :=
  hp.interfere h.trans (fun _ _ _ _ _ => trivial) hs

/-- One event moves the state along `rely`, meets what its statement needs,
and leaves every request proved. -/
theorem Cooperative.step (h : Cooperative sem serve envStep D) {cfg : Config Resp ε α σ}
    (hcfg : cfg.Proved sem D) (e : Event C Req Env) (he : cfg.Issuing D.admits e) :
    cfg.Issuing D.needs e ∧ D.rely cfg.state (cfg.step sem serve envStep e).state ∧
      (cfg.step sem serve envStep e).Proved sem D := by
  obtain ⟨hself, hthreads⟩ := hcfg
  cases e with
  | act i c =>
      simp only [Config.Issuing] at he
      simp only [Config.Issuing, Config.step]
      cases hi : cfg.threads[i]? with
      | none => exact ⟨trivial, hself, hself, hthreads⟩
      | some p =>
          cases p with
          | ret a => exact ⟨trivial, hself, hself, hthreads⟩
          | raise e => exact ⟨trivial, hself, hself, hthreads⟩
          | stmt q k =>
              simp only [hi] at he
              obtain ⟨hneeds, hrest⟩ :=
                hthreads _ (List.mem_of_getElem? hi) cfg.state hself c he
              have hmove := h.stmt c q cfg.state hself he hneeds
              refine ⟨hneeds, hmove, h.self _ _ hmove, fun p hp => ?_⟩
              rcases List.mem_or_eq_of_mem_set hp with hp | rfl
              · exact h.proved_interfere (hthreads p hp) hmove
              · exact hrest
  | spawn r =>
      refine ⟨trivial, hself, hself, fun p hp => ?_⟩
      rcases List.mem_append.mp hp with hp | hp
      · exact hthreads p hp
      · rw [List.mem_singleton.mp hp]
        exact h.serve r cfg.state hself
  | env a =>
      have hmove := h.env a cfg.state hself
      exact ⟨trivial, hmove, h.self _ _ hmove,
        fun p hp => h.proved_interfere (hthreads p hp) hmove⟩

/-- **Pool rule.** A schedule moves the state along `rely`, and every one of
its statements meets what it needs. -/
theorem Cooperative.run (h : Cooperative sem serve envStep D)
    (schedule : List (Event C Req Env)) {cfg : Config Resp ε α σ} (hcfg : cfg.Proved sem D)
    (hadm : cfg.AllSteps sem serve envStep D.admits schedule) :
    D.rely cfg.state (cfg.run sem serve envStep schedule).state ∧
      cfg.AllSteps sem serve envStep D.needs schedule := by
  induction schedule generalizing cfg with
  | nil => exact ⟨hcfg.1, trivial⟩
  | cons e schedule ih =>
      obtain ⟨hmeets, hmove, hnext⟩ := h.step hcfg e hadm.1
      obtain ⟨hrun, hsteps⟩ := ih hnext hadm.2
      exact ⟨h.trans _ _ _ hmove hrun, hmeets, hsteps⟩

end Pool

end StatementProgram
