import DiepLab.Library.Interleaving
import Mathlib.Data.List.Forall2

/-!
Programs that follow a protocol.

A protocol is an automaton that reads the statements of a program with their
answers. `Follows` says that a program issues only statements that the automaton
has a move for; where a request stands in its work is then the state of the
automaton, its phase. In a pool of such requests an invariant over the phases of
all of them and the shared state holds along every schedule, if each move keeps
it (`Protocol.Keeps.run`).
-/

namespace StatementProgram

variable {Stmt : Type} {Resp : Stmt → Type} {ε α β Φ : Type}

structure Protocol {Stmt : Type} (Resp : Stmt → Type) (ε Φ : Type) where
  /-- The phase after a statement and its answer, if the statement is in order. -/
  next : Φ → (q : Stmt) → Except ε (Resp q) → Option Φ
  /-- A request may end here. -/
  final : Φ → Prop

namespace Protocol

variable (P : Protocol Resp ε Φ)

/-- Started in a phase, the program issues statements that are in order, and
ends in a phase and with an outcome as `K` says. -/
def FollowsTo (K : Except ε α → Φ → Prop) : Φ → Prog Resp ε α → Prop
  | φ, .ret a => K (.ok a) φ
  | φ, .raise e => K (.error e) φ
  | φ, .stmt q k => ∀ r, ∃ φ', P.next φ q r = some φ' ∧ FollowsTo K φ' (k r)

/-- The program follows the protocol to its end. -/
abbrev Follows (φ : Φ) (p : Prog Resp ε α) : Prop := P.FollowsTo (fun _ φ => P.final φ) φ p

variable {P} {K : Except ε α → Φ → Prop} {φ : Φ}

@[simp] theorem followsTo_pure (a : α) :
    P.FollowsTo K φ (pure a : Prog Resp ε α) ↔ K (.ok a) φ := Iff.rfl

@[simp] theorem followsTo_throw (e : ε) :
    P.FollowsTo K φ (throw e : Prog Resp ε α) ↔ K (.error e) φ := Iff.rfl

theorem followsTo_call {q : Stmt} {K : Except ε (Resp q) → Φ → Prop} :
    P.FollowsTo K φ (Prog.call q : Prog Resp ε (Resp q)) ↔
      ∀ r, ∃ φ', P.next φ q r = some φ' ∧ K r φ' := by
  refine forall_congr' fun r => exists_congr fun φ' => and_congr_right fun _ => ?_
  cases r <;> rfl

theorem followsTo_bind {f : α → Prog Resp ε β} {K : Except ε β → Φ → Prop}
    {p : Prog Resp ε α} :
    P.FollowsTo K φ (p >>= f) ↔
      P.FollowsTo (fun r φ' =>
        match r with
        | .ok a => P.FollowsTo K φ' (f a)
        | .error e => K (.error e) φ') φ p := by
  induction p generalizing φ with
  | ret a => exact Iff.rfl
  | raise e => exact Iff.rfl
  | stmt q k ih =>
      exact forall_congr' fun r => exists_congr fun φ' => and_congr_right fun _ => ih r

theorem followsTo_attempt {h : ε → Prog Resp ε α} {p : Prog Resp ε α} :
    P.FollowsTo K φ (tryCatch p h) ↔
      P.FollowsTo (fun r φ' =>
        match r with
        | .ok a => K (.ok a) φ'
        | .error e => P.FollowsTo K φ' (h e)) φ p := by
  induction p generalizing φ with
  | ret a => exact Iff.rfl
  | raise e => exact Iff.rfl
  | stmt q k ih =>
      exact forall_congr' fun r => exists_congr fun φ' => and_congr_right fun _ => ih r

theorem FollowsTo.mono {K' : Except ε α → Φ → Prop} (hK : ∀ r φ, K r φ → K' r φ)
    {p : Prog Resp ε α} (h : P.FollowsTo K φ p) : P.FollowsTo K' φ p := by
  induction p generalizing φ with
  | ret a => exact hK _ _ h
  | raise e => exact hK _ _ h
  | stmt q k ih =>
      intro r
      obtain ⟨φ', hnext, hrest⟩ := h r
      exact ⟨φ', hnext, ih r hrest⟩

end Protocol

/-! ### Phases by index -/

theorem phase_set {phases : List Φ} {i j : ℕ} {new φ : Φ}
    (h : (phases.set i new)[j]? = some φ) : (j = i ∧ φ = new) ∨ (j ≠ i ∧ phases[j]? = some φ) := by
  rw [List.getElem?_set] at h
  split at h
  · split at h
    · exact Or.inl ⟨by omega, (Option.some.inj h).symm⟩
    · exact nomatch h
  · exact Or.inr ⟨by omega, h⟩

theorem phase_spawn {phases : List Φ} {j : ℕ} {new φ : Φ}
    (h : (phases ++ [new])[j]? = some φ) : phases[j]? = some φ ∨ φ = new := by
  rcases List.mem_append.mp (List.mem_of_getElem? h) with _ | hnew
  · by_cases hj : j < phases.length
    · rw [List.getElem?_append_left hj] at h
      exact Or.inl h
    · rw [List.getElem?_append_right (by omega)] at h
      exact Or.inr (List.mem_singleton.mp (List.mem_of_getElem? h))
  · exact Or.inr (List.mem_singleton.mp hnew)

/-- How often a phase occurs after one of them has changed. -/
theorem count_phase_set [DecidableEq Φ] {phases : List Φ} {i : ℕ} {φ : Φ}
    (h : phases[i]? = some φ) (φ' ψ : Φ) :
    (phases.set i φ').count ψ + (if φ = ψ then 1 else 0) =
      phases.count ψ + if φ' = ψ then 1 else 0 := by
  obtain ⟨hi, rfl⟩ := List.getElem?_eq_some_iff.mp h
  rw [List.count_set hi]
  simp only [beq_iff_eq]
  by_cases hold : phases[i] = ψ
  · have hpos : 0 < phases.count ψ :=
      List.count_pos_iff.mpr (List.mem_of_getElem? (h.trans (congrArg some hold)))
    simp only [if_pos hold]
    omega
  · simp only [if_neg hold]
    omega

/-! ### Pools -/

/-- The program has returned or raised. -/
def Prog.Ended : Prog Resp ε α → Prop
  | .ret _ => True
  | .raise _ => True
  | .stmt _ _ => False

instance (p : Prog Resp ε α) : Decidable p.Ended := by
  cases p <;> simp only [Prog.Ended] <;> infer_instance

section Pool

variable {C σ Req Env : Type} (P : Protocol Resp ε Φ)

/-- The requests in service stand in these phases. -/
def Config.InPhases (cfg : Config Resp ε α σ) (phases : List Φ) : Prop :=
  List.Forall₂ (fun φ p => P.Follows φ p) phases cfg.threads

variable (sem : C → (q : Stmt) → σ → Except ε (Resp q) × σ) (serve : Req → Prog Resp ε α)
variable (envStep : Env → σ → σ)

/-- Every request follows the protocol, and every move keeps the invariant. -/
structure Protocol.Keeps (admits : C → Stmt → σ → Prop) (start : Req → Φ)
    (I : List Φ → σ → Prop) : Prop where
  follows : ∀ r, P.Follows (start r) (serve r)
  act : ∀ phases s i φ c q φ', I phases s → phases[i]? = some φ → admits c q s →
    P.next φ q (sem c q s).1 = some φ' → I (phases.set i φ') (sem c q s).2
  spawn : ∀ r phases s, I phases s → I (phases ++ [start r]) s
  env : ∀ a phases s, I phases s → I phases (envStep a s)

variable {P sem serve envStep} {admits : C → Stmt → σ → Prop} {start : Req → Φ}
variable {I : List Φ → σ → Prop}

theorem Config.InPhases.getElem? {cfg : Config Resp ε α σ} {phases : List Φ}
    (h : cfg.InPhases P phases) {i : ℕ} {p : Prog Resp ε α} (hp : cfg.threads[i]? = some p) :
    ∃ φ, phases[i]? = some φ ∧ P.Follows φ p := by
  obtain ⟨hlength, hfollows⟩ := List.forall₂_iff_get.mp h
  obtain ⟨hi, rfl⟩ := List.getElem?_eq_some_iff.mp hp
  exact ⟨phases[i], List.getElem?_eq_getElem (hlength ▸ hi), hfollows i (hlength ▸ hi) hi⟩

theorem Config.InPhases.set {cfg : Config Resp ε α σ} {phases : List Φ}
    (h : cfg.InPhases P phases) (i : ℕ) {φ : Φ} {p : Prog Resp ε α} (hp : P.Follows φ p)
    (s : σ) : Config.InPhases P { state := s, threads := cfg.threads.set i p }
      (phases.set i φ) := by
  obtain ⟨s', threads⟩ := cfg
  unfold Config.InPhases at h ⊢
  dsimp only at h ⊢
  induction h generalizing i with
  | nil => exact .nil
  | cons hhead htail ih =>
      cases i with
      | zero => exact .cons hp htail
      | succ i => exact .cons hhead (ih i)

/-- A request that has ended stands at the end of the protocol. -/
theorem Config.InPhases.final {cfg : Config Resp ε α σ} {phases : List Φ}
    (h : cfg.InPhases P phases) (hended : ∀ p ∈ cfg.threads, p.Ended) :
    ∀ φ ∈ phases, P.final φ := by
  obtain ⟨s, threads⟩ := cfg
  unfold Config.InPhases at h
  dsimp only at h hended
  induction h with
  | nil => exact nofun
  | @cons φ p phases threads hhead _ ih =>
      rw [List.forall_mem_cons] at hended ⊢
      refine ⟨?_, ih hended.2⟩
      cases p with
      | ret a => exact hhead
      | raise e => exact hhead
      | stmt q k => exact hended.1.elim

/-- One event keeps the invariant and the phases. -/
theorem Protocol.Keeps.step (h : P.Keeps sem serve envStep admits start I)
    {cfg : Config Resp ε α σ} {phases : List Φ} (hcfg : cfg.InPhases P phases)
    (hI : I phases cfg.state) (e : Event C Req Env) (hissue : cfg.Issuing admits e) :
    ∃ phases', (cfg.step sem serve envStep e).InPhases P phases' ∧
      I phases' (cfg.step sem serve envStep e).state := by
  cases e with
  | act i c =>
      simp only [Config.Issuing] at hissue
      simp only [Config.step]
      cases hi : cfg.threads[i]? with
      | none => exact ⟨phases, hcfg, hI⟩
      | some p =>
          cases p with
          | ret a => exact ⟨phases, hcfg, hI⟩
          | raise e => exact ⟨phases, hcfg, hI⟩
          | stmt q k =>
              rw [hi] at hissue
              obtain ⟨φ, hφ, hfollows⟩ := hcfg.getElem? hi
              obtain ⟨φ', hnext, hk⟩ := hfollows (sem c q cfg.state).1
              exact ⟨phases.set i φ', hcfg.set i hk _,
                h.act phases cfg.state i φ c q φ' hI hφ hissue hnext⟩
  | spawn r =>
      exact ⟨phases ++ [start r], List.rel_append hcfg (.cons (h.follows r) .nil),
        h.spawn r phases cfg.state hI⟩
  | env a => exact ⟨phases, hcfg, h.env a phases cfg.state hI⟩

/-- **Protocol rule.** -/
theorem Protocol.Keeps.run (h : P.Keeps sem serve envStep admits start I)
    (schedule : List (Event C Req Env)) {cfg : Config Resp ε α σ} {phases : List Φ}
    (hcfg : cfg.InPhases P phases) (hI : I phases cfg.state)
    (hadm : cfg.AllSteps sem serve envStep admits schedule) :
    ∃ phases', (cfg.run sem serve envStep schedule).InPhases P phases' ∧
      I phases' (cfg.run sem serve envStep schedule).state := by
  induction schedule generalizing cfg phases with
  | nil => exact ⟨phases, hcfg, hI⟩
  | cons e schedule ih =>
      obtain ⟨phases', hcfg', hI'⟩ := h.step hcfg hI e hadm.1
      exact ih hcfg' hI' hadm.2

/-- Every statement is issued where the invariant holds. -/
theorem Protocol.Keeps.allSteps (h : P.Keeps sem serve envStep admits start I)
    (schedule : List (Event C Req Env)) {cfg : Config Resp ε α σ} {phases : List Φ}
    (hcfg : cfg.InPhases P phases) (hI : I phases cfg.state)
    (hadm : cfg.AllSteps sem serve envStep admits schedule) :
    cfg.AllSteps sem serve envStep (fun c q s => admits c q s ∧ ∃ phases, I phases s)
      schedule := by
  induction schedule generalizing cfg phases with
  | nil => trivial
  | cons e schedule ih =>
      obtain ⟨hissue, hrest⟩ := hadm
      obtain ⟨phases', hcfg', hI'⟩ := h.step hcfg hI e hissue
      refine ⟨?_, ih hcfg' hI' hrest⟩
      cases e with
      | act i c =>
          simp only [Config.Issuing] at hissue ⊢
          split
          · rename_i q k hi
            rw [hi] at hissue
            exact ⟨hissue, phases, hI⟩
          · trivial
      | spawn r => trivial
      | env a => trivial

end Pool

end StatementProgram
