import DiepLab.Library.StatementProgram

/-!
What a program lets out.

Some statements append messages to a log that no statement shortens: a topic, an
outbox, a socket. `SaysOnly` is the weakest condition on the state under which a
program that runs alone lets out good messages only, whatever the surroundings
decide (`saysOnly_iff`). Being a weakest precondition it is computed along the
program, and the rules below are equivalences: a statement that may fail and
says nothing hands the condition on to what follows, and so does a part of the
program that only reads (`wp_plain`).
-/

namespace StatementProgram

variable {Stmt : Type} {Resp : Stmt → Type} {ε α β C σ μ : Type}

/-! ### Programs that let exceptions through -/

/-- Every statement that the program can issue satisfies `P`, and no exception
of one is caught. -/
def Prog.Plain (P : Stmt → Prop) : Prog Resp ε α → Prop
  | .ret _ => True
  | .raise _ => True
  | .stmt q k => P q ∧ (∀ e, ∃ e', k (.error e) = .raise e') ∧ ∀ a, (k (.ok a)).Plain P

namespace Prog

variable {P : Stmt → Prop}

@[simp] theorem plain_pure (a : α) : (pure a : Prog Resp ε α).Plain P := trivial

@[simp] theorem plain_throw (e : ε) : (throw e : Prog Resp ε α).Plain P := trivial

theorem plain_call {q : Stmt} (hq : P q) : (call q : Prog Resp ε (Resp q)).Plain P :=
  ⟨hq, fun e => ⟨e, rfl⟩, fun _ => trivial⟩

@[simp] theorem plain_raiseIf (c : Prop) [Decidable c] (e : ε) :
    (raiseIf c e : Prog Resp ε Unit).Plain P := by
  unfold raiseIf
  split <;> trivial

theorem bind_assoc {γ : Type} (p : Prog Resp ε α) (f : α → Prog Resp ε β)
    (g : β → Prog Resp ε γ) : (p >>= f) >>= g = p >>= fun a => f a >>= g := by
  induction p with
  | ret a => rfl
  | raise e => rfl
  | stmt q k ih => exact congrArg (Prog.stmt q) (funext fun r => ih r)

theorem Plain.bind {p : Prog Resp ε α} {f : α → Prog Resp ε β} (hp : p.Plain P)
    (hf : ∀ a, (f a).Plain P) : (p >>= f).Plain P := by
  induction p with
  | ret a => exact hf a
  | raise e => trivial
  | stmt q k ih =>
      obtain ⟨hq, herror, hok⟩ := hp
      refine ⟨hq, fun e => ?_, fun a => ih _ (hok a)⟩
      obtain ⟨e', he⟩ := herror e
      exact ⟨e', congrArg (fun p => Prog.bind p f) he⟩

theorem Plain.run_congr {exec exec' : (q : Stmt) → σ → Except ε (Resp q) × σ}
    {p : Prog Resp ε α} (hp : p.Plain P) (h : ∀ q s, P q → exec q s = exec' q s) (s : σ) :
    p.run exec s = p.run exec' s := by
  induction p generalizing s with
  | ret a => rfl
  | raise e => rfl
  | stmt q k ih =>
      obtain ⟨hq, herror, hok⟩ := hp
      rw [run_stmt, run_stmt, h q s hq]
      cases (exec' q s).1 with
      | ok a => exact ih _ (hok a) _
      | error e =>
          obtain ⟨e', he⟩ := herror e
          rw [he]
          rfl

section Sum

variable {Stmt' : Type} {Resp' : Stmt' → Type}

theorem Plain.inl {P' : Stmt ⊕ Stmt' → Prop} (hP : ∀ q, P q → P' (.inl q)) {p : Prog Resp ε α}
    (hp : p.Plain P) : (p.inl : Prog (Sum.elim Resp Resp') ε α).Plain P' := by
  induction p with
  | ret a => trivial
  | raise e => trivial
  | stmt q k ih =>
      obtain ⟨hq, herror, hok⟩ := hp
      refine ⟨hP q hq, fun e => ?_, fun a => ih _ (hok a)⟩
      obtain ⟨e', he⟩ := herror e
      exact ⟨e', congrArg Prog.inl he⟩

theorem Issues.inl {P' : Stmt ⊕ Stmt' → Prop} (hP : ∀ q, P q → P' (.inl q)) {p : Prog Resp ε α}
    (hp : p.Issues P) : (p.inl : Prog (Sum.elim Resp Resp') ε α).Issues P' := by
  induction p with
  | ret a => trivial
  | raise e => trivial
  | stmt q k ih => exact ⟨hP q hp.1, fun r => ih r (hp.2 r)⟩

theorem inl_call (q : Stmt) :
    ((call q).inl : Prog (Sum.elim Resp Resp') ε (Resp q)) =
      (call (Sum.inl q) : Prog (Sum.elim Resp Resp') ε (Sum.elim Resp Resp' (.inl q))) := by
  refine congrArg (Prog.stmt (Sum.inl q)) (funext fun r => ?_)
  cases r <;> rfl

@[simp] theorem inl_bind (p : Prog Resp ε α) (f : α → Prog Resp ε β) :
    ((p >>= f).inl : Prog (Sum.elim Resp Resp') ε β) = p.inl >>= fun a => (f a).inl := by
  induction p with
  | ret a => rfl
  | raise e => rfl
  | stmt q k ih => exact congrArg (Prog.stmt (.inl q)) (funext fun r => ih r)

/-- A program runs in a larger language as it does on its own part of the
state. -/
theorem run_inl {σ' : Type} {exec : (q : Stmt) → σ → Except ε (Resp q) × σ}
    {exec' : (q : Stmt ⊕ Stmt') → σ' → Except ε (Sum.elim Resp Resp' q) × σ'} (view : σ' → σ)
    (hanswer : ∀ q s, (exec' (.inl q) s).1 = (exec q (view s)).1)
    (hstate : ∀ q s, view (exec' (.inl q) s).2 = (exec q (view s)).2)
    (p : Prog Resp ε α) (s : σ') :
    ((p.inl : Prog (Sum.elim Resp Resp') ε α).run exec' s).1 = (p.run exec (view s)).1 := by
  induction p generalizing s with
  | ret a => rfl
  | raise e => rfl
  | stmt q k ih =>
      rw [Prog.inl, run_stmt, run_stmt, hanswer, ih, hstate]

end Sum

end Prog

/-! ### Running alone -/

/-- Nothing moves in between, and every decision is considered. -/
def Rules.alone (needs : C → Stmt → σ → Prop) : Rules Stmt C σ where
  rely := Eq
  admits _ _ _ := True
  needs := needs

section Alone

variable {sem : C → (q : Stmt) → σ → Except ε (Resp q) × σ} {needs : C → Stmt → σ → Prop}
variable {Q : Except ε α → σ → Prop} {s : σ}

theorem wp_alone_stmt {q : Stmt} {k : Except ε (Resp q) → Prog Resp ε α} :
    wp sem (.alone needs) (.stmt q k) Q s ↔
      ∀ c, needs c q s ∧ wp sem (.alone needs) (k (sem c q s).1) Q (sem c q s).2 :=
  ⟨fun h c => h s rfl c trivial, fun h _ hs c _ => hs ▸ h c⟩

theorem wp_alone_call {q : Stmt} {Q : Except ε (Resp q) → σ → Prop} :
    wp sem (.alone needs) (.call q) Q s ↔
      ∀ c, needs c q s ∧ Q (sem c q s).1 (sem c q s).2 := by
  rw [Prog.call, wp_alone_stmt]
  refine forall_congr' fun c => and_congr_right fun _ => ?_
  cases (sem c q s).1 <;> rfl

/-- A statement that needs nothing, when an exception of it is no harm. -/
theorem wp_silent_call {q : Stmt} {Q : Except ε (Resp q) → σ → Prop}
    (hneeds : ∀ c, needs c q s) (hQ : ∀ e s', Q (.error e) s') :
    wp sem (.alone needs) (.call q) Q s ↔
      ∀ c a, (sem c q s).1 = .ok a → Q (.ok a) (sem c q s).2 := by
  rw [wp_alone_call]
  refine forall_congr' fun c => ?_
  rw [and_iff_right (hneeds c)]
  cases (sem c q s).1 with
  | ok a => simp
  | error e => simp [hQ]

/-- A part that only reads: what follows it meets the answer that the part has
in the state as it is, and no other. `calm` is a decision under which nothing
fails. -/
theorem wp_plain {P : Stmt → Prop} (calm : C)
    (hneeds : ∀ c q s, P q → needs c q s)
    (hsteady : ∀ c q s, P q → (∃ e, sem c q s = (.error e, s)) ∨ sem c q s = sem calm q s)
    (hcalm : ∀ q s, P q → ∃ a, sem calm q s = (.ok a, s))
    {p : Prog Resp ε α} (hp : p.Plain P) (hQ : ∀ e s', Q (.error e) s') :
    wp sem (.alone needs) p Q s ↔ ∀ a, (p.run (sem calm) s).1 = .ok a → Q (.ok a) s := by
  induction p with
  | ret a => simp
  | raise e => simp [hQ]
  | stmt q k ih =>
      obtain ⟨hq, herror, hok⟩ := hp
      obtain ⟨a, ha⟩ := hcalm q s hq
      rw [wp_alone_stmt, Prog.run_stmt, ha, ← ih _ (hok a)]
      constructor
      · intro h
        have hthis := (h calm).2
        rwa [ha] at hthis
      · intro h c
        refine ⟨hneeds c q s hq, ?_⟩
        rcases hsteady c q s hq with ⟨e, he⟩ | hsame
        · obtain ⟨e', hraise⟩ := herror e
          rw [he, hraise]
          exact hQ e' s
        · rw [hsame, ha]
          exact h

end Alone

/-! ### Output -/

/-- A log that statements append to. -/
structure Output (sem : C → (q : Stmt) → σ → Except ε (Resp q) × σ) (μ : Type) where
  log : σ → List μ
  said : C → Stmt → σ → List μ
  log_sem : ∀ c q s, log (sem c q s).2 = log s ++ said c q s

variable {sem : C → (q : Stmt) → σ → Except ε (Resp q) × σ}

/-- What a statement may say. -/
def Output.needs (O : Output sem μ) (good : μ → Prop) (c : C) (q : Stmt) (s : σ) : Prop :=
  ∀ msg ∈ O.said c q s, good msg

def SaysOnly (O : Output sem μ) (good : μ → Prop) (p : Prog Resp ε α) (s : σ) : Prop :=
  wp sem (.alone (O.needs good)) p (fun _ _ => True) s

section SaysOnly

variable {O : Output sem μ} {good : μ → Prop}

theorem Output.log_run (O : Output sem μ) (p : Prog Resp ε α) (s : σ) (c : ℕ → C) :
    ∃ more, O.log (p.run (withChoices sem) (s, c)).2.1 = O.log s ++ more := by
  induction p generalizing s c with
  | ret a => exact ⟨[], (List.append_nil _).symm⟩
  | raise e => exact ⟨[], (List.append_nil _).symm⟩
  | stmt q k ih =>
      obtain ⟨more, hmore⟩ := ih (sem (c 0) q s).1 (sem (c 0) q s).2 fun n => c (n + 1)
      refine ⟨O.said (c 0) q s ++ more, ?_⟩
      rw [← List.append_assoc, ← O.log_sem]
      exact hmore

/-- The messages of a run are those of its first statement and those of the
rest. -/
theorem Output.mem_drop_log (O : Output sem μ) (q : Stmt)
    (k : Except ε (Resp q) → Prog Resp ε α) (s : σ) (c : ℕ → C) (msg : μ) :
    msg ∈ (O.log ((Prog.stmt q k).run (withChoices sem) (s, c)).2.1).drop (O.log s).length ↔
      msg ∈ O.said (c 0) q s ∨
        msg ∈ (O.log ((k (sem (c 0) q s).1).run (withChoices sem)
          ((sem (c 0) q s).2, fun n => c (n + 1))).2.1).drop (O.log (sem (c 0) q s).2).length := by
  obtain ⟨more, hmore⟩ := O.log_run (k (sem (c 0) q s).1) (sem (c 0) q s).2 fun n => c (n + 1)
  rw [Prog.run_stmt]
  simp only [withChoices] at hmore ⊢
  rw [hmore, List.drop_left, O.log_sem, List.append_assoc, List.drop_left, List.mem_append]

/-- **Adequacy.** -/
theorem saysOnly_iff (p : Prog Resp ε α) (s : σ) :
    SaysOnly O good p s ↔ ∀ c : ℕ → C,
      ∀ msg ∈ (O.log (p.run (withChoices sem) (s, c)).2.1).drop (O.log s).length, good msg := by
  induction p generalizing s with
  | ret a => simp [SaysOnly]
  | raise e => simp [SaysOnly]
  | stmt q k ih =>
      rw [SaysOnly, wp_alone_stmt]
      constructor
      · intro h c msg hmsg
        rcases (O.mem_drop_log q k s c msg).mp hmsg with hmsg | hmsg
        · exact (h (c 0)).1 msg hmsg
        · exact (ih _ _).mp (h (c 0)).2 _ msg hmsg
      · intro h c₀
        refine ⟨fun msg hmsg => ?_, (ih _ _).mpr fun c msg hmsg => ?_⟩
        · exact h (fun _ => c₀) msg ((O.mem_drop_log q k s _ msg).mpr (Or.inl hmsg))
        · let choices : ℕ → C := fun
            | 0 => c₀
            | n + 1 => c n
          exact h choices msg ((O.mem_drop_log q k s choices msg).mpr (Or.inr hmsg))

/-- What says nothing may follow. -/
theorem saysOnly_bind_silent {p : Prog Resp ε α} {f : α → Prog Resp ε β} {s : σ}
    (hf : ∀ a, (f a).Issues fun q => ∀ c s, O.said c q s = []) :
    SaysOnly O good (p >>= f) s ↔ SaysOnly O good p s := by
  rw [SaysOnly, SaysOnly, wp_bind]
  refine ⟨fun h => h.mono fun _ _ _ => trivial, fun h => h.mono fun r s' _ => ?_⟩
  cases r with
  | ok a =>
      refine wp.of_issues_needs (fun c q s hq msg hmsg => ?_) (hf a) s'
      rw [hq c s] at hmsg
      exact absurd hmsg List.not_mem_nil
  | error e => trivial

theorem saysOnly_attempt_silent {p : Prog Resp ε α} {h : ε → Prog Resp ε α} {s : σ}
    (hh : ∀ e, (h e).Issues fun q => ∀ c s, O.said c q s = []) :
    SaysOnly O good (tryCatch p h) s ↔ SaysOnly O good p s := by
  rw [SaysOnly, SaysOnly, wp_attempt]
  refine ⟨fun hp => hp.mono fun _ _ _ => trivial, fun hp => hp.mono fun r s' _ => ?_⟩
  cases r with
  | ok a => trivial
  | error e =>
      refine wp.of_issues_needs (fun c q s hq msg hmsg => ?_) (hh e) s'
      rw [hq c s] at hmsg
      exact absurd hmsg List.not_mem_nil

/-- A program does not tell apart semantics that agree on what it issues. -/
theorem saysOnly_congr {sem' : C → (q : Stmt) → σ → Except ε (Resp q) × σ} {O' : Output sem' μ}
    {p : Prog Resp ε α} (hp : p.Issues fun q => ∀ c s,
      sem c q s = sem' c q s ∧ O.said c q s = O'.said c q s) {s : σ} :
    SaysOnly O good p s ↔ SaysOnly O' good p s := by
  induction p generalizing s with
  | ret a => exact Iff.rfl
  | raise e => exact Iff.rfl
  | stmt q k ih =>
      rw [SaysOnly, SaysOnly, wp_alone_stmt, wp_alone_stmt]
      refine forall_congr' fun c => ?_
      obtain ⟨hsem, hsaid⟩ := hp.1 c s
      rw [Output.needs, Output.needs, hsaid, hsem]
      exact and_congr_right fun _ => ih _ (hp.2 _)

theorem saysOnly_silent {p : Prog Resp ε α} {s : σ}
    (hp : p.Issues fun q => ∀ c s, O.said c q s = []) : SaysOnly O good p s := by
  refine wp.of_issues_needs (fun c q s hq msg hmsg => ?_) hp s
  rw [hq c s] at hmsg
  exact absurd hmsg List.not_mem_nil

end SaysOnly

end StatementProgram
