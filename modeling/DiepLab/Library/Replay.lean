import DiepLab.Library.Interleaving
import Mathlib.Data.List.Forall2

/-!
The past of a pool.

Nothing but statements changes the shared state, so after a schedule it is what
the statements make of it one by one, in the order in which they have been
issued. `Past` records that order, with the request that has issued each of them
(`Config.run_replay`). What a request does to the state can then be told from
the statements that it may issue, however it was interleaved with others.
-/

namespace StatementProgram

variable {Stmt : Type} {Resp : Stmt → Type} {ε α C σ Req Env : Type}

/-- What has happened in a pool that was empty at first. -/
structure Past (Stmt C Req : Type) where
  arrived : List Req := []
  /-- Who has issued which statement, and what the surroundings decided. -/
  issued : List (Req × C × Stmt) := []

namespace Past

/-- Everything that was issued has been issued by a request that may do so. -/
def Allowed (P : Req → Stmt → Prop) (past : Past Stmt C Req) : Prop :=
  ∀ e ∈ past.issued, P e.1 e.2.2

/-- The `i`-th that has arrived issues a statement. -/
def issue (past : Past Stmt C Req) (i : ℕ) (c : C) (q : Stmt) : Past Stmt C Req :=
  { past with issued := past.issued ++ (past.arrived[i]?.map fun r => (r, c, q)).toList }

/-- The state after the statements, one by one. -/
def replay (sem : C → (q : Stmt) → σ → Except ε (Resp q) × σ) (past : Past Stmt C Req) (s : σ) :
    σ :=
  past.issued.foldl (fun s e => (sem e.2.1 e.2.2 s).2) s

end Past

section Pool

variable (sem : C → (q : Stmt) → σ → Except ε (Resp q) × σ) (serve : Req → Prog Resp ε α)
variable (envStep : Env → σ → σ)

namespace Config

/-- What an event adds to the past. -/
def note (cfg : Config Resp ε α σ) (past : Past Stmt C Req) : Event C Req Env → Past Stmt C Req
  | .act i c =>
      match cfg.threads[i]? with
      | some (.stmt q _) => past.issue i c q
      | _ => past
  | .spawn r => { past with arrived := past.arrived ++ [r] }
  | .env _ => past

/-- The past after a whole schedule. -/
def past (cfg : Config Resp ε α σ) (before : Past Stmt C Req) :
    List (Event C Req Env) → Past Stmt C Req
  | [] => before
  | e :: schedule => (cfg.step sem serve envStep e).past (cfg.note before e) schedule

/-- The requests in service are those that have arrived, and each may issue what
it is going to issue. -/
def Serves (P : Req → Stmt → Prop) (cfg : Config Resp ε α σ) (past : Past Stmt C Req) : Prop :=
  List.Forall₂ (fun r p => p.Issues (P r)) past.arrived cfg.threads

variable {sem serve envStep} {P : Req → Stmt → Prop} {cfg : Config Resp ε α σ}
variable {before : Past Stmt C Req}

theorem Serves.getElem? (h : cfg.Serves P before) {i : ℕ} {p : Prog Resp ε α}
    (hp : cfg.threads[i]? = some p) : ∃ r, before.arrived[i]? = some r ∧ p.Issues (P r) := by
  obtain ⟨hlength, hissues⟩ := List.forall₂_iff_get.mp h
  obtain ⟨hi, rfl⟩ := List.getElem?_eq_some_iff.mp hp
  exact ⟨_, List.getElem?_eq_getElem (hlength ▸ hi), hissues i (hlength ▸ hi) hi⟩

theorem Serves.set (h : cfg.Serves P before) {i : ℕ} {r : Req} (hr : before.arrived[i]? = some r)
    {p : Prog Resp ε α} (hp : p.Issues (P r)) (s : σ) (issued : List (Req × C × Stmt)) :
    Serves P { state := s, threads := cfg.threads.set i p } { before with issued := issued } := by
  obtain ⟨arrived, _⟩ := before
  obtain ⟨_, threads⟩ := cfg
  unfold Serves at h ⊢
  dsimp only at h hr ⊢
  induction h generalizing i with
  | nil => exact .nil
  | cons hhead htail ih =>
      cases i with
      | zero =>
          injection hr with hr
          exact .cons (hr ▸ hp) htail
      | succ i => exact .cons hhead (ih hr)

theorem replay_step [IsEmpty Env] (hserve : ∀ r, (serve r).Issues (P r)) {s : σ}
    (hcfg : cfg.Serves P before) (hallowed : before.Allowed P)
    (hstate : cfg.state = before.replay sem s) (e : Event C Req Env) :
    (cfg.step sem serve envStep e).Serves P (cfg.note before e) ∧
      (cfg.note before e).Allowed P ∧
      (cfg.step sem serve envStep e).state = (cfg.note before e).replay sem s := by
  cases e with
  | act i c =>
      simp only [step, note]
      cases hi : cfg.threads[i]? with
      | none => exact ⟨hcfg, hallowed, hstate⟩
      | some p =>
          cases p with
          | ret a => exact ⟨hcfg, hallowed, hstate⟩
          | raise e => exact ⟨hcfg, hallowed, hstate⟩
          | stmt q k =>
              obtain ⟨r, hr, hp⟩ := hcfg.getElem? hi
              have hissue : before.issue i c q =
                  { before with issued := before.issued ++ [(r, c, q)] } := by
                rw [Past.issue, hr]
                rfl
              simp only [hissue]
              refine ⟨hcfg.set hr (hp.2 _) _ _, fun e he => ?_, ?_⟩
              · rcases List.mem_append.mp he with he | he
                · exact hallowed e he
                · rw [List.mem_singleton.mp he]
                  exact hp.1
              · rw [Past.replay, List.foldl_append, ← Past.replay, ← hstate]
                rfl
  | spawn r => exact ⟨List.rel_append hcfg (.cons (hserve r) .nil), hallowed, hstate⟩
  | env a => exact isEmptyElim a

/-- **Replay.** The state after a schedule is what the issued statements make of
it in their order, and each of them may be issued by its request. -/
theorem run_replay [IsEmpty Env] (hserve : ∀ r, (serve r).Issues (P r)) (s : σ)
    (schedule : List (Event C Req Env)) :
    (run sem serve envStep ⟨s, []⟩ schedule).state =
        (past sem serve envStep ⟨s, []⟩ {} schedule).replay sem s ∧
      (past sem serve envStep ⟨s, []⟩ {} schedule).Allowed P := by
  suffices H : ∀ (cfg : Config Resp ε α σ) (before : Past Stmt C Req), cfg.Serves P before →
      before.Allowed P → cfg.state = before.replay sem s →
      (cfg.run sem serve envStep schedule).state =
          (cfg.past sem serve envStep before schedule).replay sem s ∧
        (cfg.past sem serve envStep before schedule).Allowed P from
    H ⟨s, []⟩ {} .nil nofun rfl
  induction schedule with
  | nil => exact fun cfg before _ hallowed hstate => ⟨hstate, hallowed⟩
  | cons e schedule ih =>
      intro cfg before hcfg hallowed hstate
      obtain ⟨hcfg', hallowed', hstate'⟩ := replay_step hserve hcfg hallowed hstate e
      exact ih _ _ hcfg' hallowed' hstate'

end Config

end Pool

end StatementProgram
