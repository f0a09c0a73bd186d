import DiepLab.Library.StatementProgram

/-!
One program in arbitrary surroundings.

`disturbed sem` lets the surroundings act in front of every statement of a
program: what they do to the state, and how the statement then turns out, is
drawn from a stream. A moment of a run is the state together with what is left
of the stream, and `Throughout` says of one run that every statement satisfies
a predicate at the moment it is issued. The predicate may look ahead, since
the stream decides what is to come; `Announces` says which program comes after
a statement.

`throughout_of_wp` turns a proof by `wp` into a fact about such a run, when the
surroundings keep to `rely`.
-/

namespace StatementProgram

variable {Stmt : Type} {Resp : Stmt → Type} {ε α β C σ : Type}

/-! ### What holds at every statement of a run -/

namespace Prog

variable (exec : (q : Stmt) → σ → Except ε (Resp q) × σ)

/-- Every statement of the run satisfies `P` where it is issued. -/
def Throughout (P : Stmt → σ → Prop) : Prog Resp ε α → σ → Prop
  | .ret _, _ => True
  | .raise _, _ => True
  | .stmt q k, s => P q s ∧ (k (exec q s).1).Throughout P (exec q s).2

instance decidableThroughout (P : Stmt → σ → Prop) [∀ q s, Decidable (P q s)] :
    (p : Prog Resp ε α) → (s : σ) → Decidable (p.Throughout exec P s)
  | .ret _, _ => isTrue trivial
  | .raise _, _ => isTrue trivial
  | .stmt q k, s =>
      have := decidableThroughout P (k (exec q s).1) (exec q s).2
      inferInstanceAs (Decidable (P q s ∧ _))

variable {exec} {P P' : Stmt → σ → Prop}

theorem Throughout.mono (hP : ∀ q s, P q s → P' q s) {p : Prog Resp ε α} {s : σ}
    (h : p.Throughout exec P s) : p.Throughout exec P' s := by
  induction p generalizing s with
  | ret a => trivial
  | raise e => trivial
  | stmt q k ih => exact ⟨hP q s h.1, ih _ h.2⟩

theorem Throughout.and {p : Prog Resp ε α} {s : σ} (h : p.Throughout exec P s)
    (h' : p.Throughout exec P' s) : p.Throughout exec (fun q s => P q s ∧ P' q s) s := by
  induction p generalizing s with
  | ret a => trivial
  | raise e => trivial
  | stmt q k ih => exact ⟨⟨h.1, h'.1⟩, ih _ h.2 h'.2⟩

theorem throughout_of_forall (h : ∀ q s, P q s) (p : Prog Resp ε α) (s : σ) :
    p.Throughout exec P s := by
  induction p generalizing s with
  | ret a => trivial
  | raise e => trivial
  | stmt q k ih => exact ⟨h q s, ih _ _⟩

theorem Issues.throughout {A : Stmt → Prop} (hA : ∀ q s, A q → P q s) {p : Prog Resp ε α}
    (hp : p.Issues A) (s : σ) : p.Throughout exec P s := by
  induction p generalizing s with
  | ret a => trivial
  | raise e => trivial
  | stmt q k ih => exact ⟨hA q s hp.1, ih _ (hp.2 _) _⟩

@[simp] theorem throughout_call {q : Stmt} {s : σ} :
    (call q : Prog Resp ε (Resp q)).Throughout exec P s ↔ P q s := by
  refine ⟨And.left, fun h => ⟨h, ?_⟩⟩
  cases (exec q s).1 <;> trivial

/-- A sequence: the first part, and what its answer leads to. -/
theorem throughout_bind {p : Prog Resp ε α} {f : α → Prog Resp ε β} {s : σ} :
    (p >>= f).Throughout exec P s ↔ p.Throughout exec P s ∧
      ∀ a, (p.run exec s).1 = .ok a → (f a).Throughout exec P (p.run exec s).2 := by
  induction p generalizing s with
  | ret a =>
      refine ⟨fun h => ⟨trivial, fun b hb => ?_⟩, fun h => h.2 a rfl⟩
      injection hb with hb
      exact hb ▸ h
  | raise e => exact ⟨fun _ => ⟨trivial, fun _ ha => nomatch ha⟩, fun _ => trivial⟩
  | stmt q k ih =>
      exact (and_congr_right fun _ => ih _).trans and_assoc.symm

end Prog

/-! ### What a statement announces -/

namespace Prog

/-- Run a program, and continue with what it ends in. -/
def andThen : Prog Resp ε β → (Except ε β → Prog Resp ε α) → Prog Resp ε α
  | .ret b, f => f (.ok b)
  | .raise e, f => f (.error e)
  | .stmt q k, f => .stmt q fun r => (k r).andThen f

/-- The program starts by running `g`. -/
def BeginsWith (g : Prog Resp ε β) (p : Prog Resp ε α) : Prop := ∃ f, p = g.andThen f

section BeginsWith

variable {γ : Type} {g : Prog Resp ε γ} {p : Prog Resp ε α}

theorem beginsWith_bind (p : Prog Resp ε β) (f : β → Prog Resp ε α) : BeginsWith p (p >>= f) := by
  refine ⟨fun r => ofExcept r >>= f, ?_⟩
  induction p with
  | ret b => rfl
  | raise e => rfl
  | stmt q k ih => exact congrArg (Prog.stmt q) (funext ih)

theorem beginsWith_attempt (p : Prog Resp ε α) (h : ε → Prog Resp ε α) :
    BeginsWith p (tryCatch p h) := by
  refine ⟨fun r => tryCatch (ofExcept r) h, ?_⟩
  induction p with
  | ret a => rfl
  | raise e => rfl
  | stmt q k ih => exact congrArg (Prog.stmt q) (funext ih)

theorem BeginsWith.trans {g' : Prog Resp ε β} (hg : BeginsWith g g') (hp : BeginsWith g' p) :
    BeginsWith g p := by
  obtain ⟨f, rfl⟩ := hg
  obtain ⟨f', rfl⟩ := hp
  refine ⟨fun r => (f r).andThen f', ?_⟩
  induction g with
  | ret c => rfl
  | raise e => rfl
  | stmt q k ih => exact congrArg (Prog.stmt q) (funext ih)

theorem BeginsWith.bind (h : BeginsWith g p) (f : α → Prog Resp ε β) : BeginsWith g (p >>= f) :=
  h.trans (beginsWith_bind p f)

theorem BeginsWith.attempt (h : BeginsWith g p) (handler : ε → Prog Resp ε α) :
    BeginsWith g (tryCatch p handler) :=
  h.trans (beginsWith_attempt p handler)

theorem BeginsWith.inr {Stmt' : Type} {Resp' : Stmt' → Type} (h : BeginsWith g p) :
    BeginsWith (g.inr : Prog (Sum.elim Resp' Resp) ε γ)
      (p.inr : Prog (Sum.elim Resp' Resp) ε α) := by
  obtain ⟨f, rfl⟩ := h
  refine ⟨fun r => (f r).inr, ?_⟩
  induction g with
  | ret c => rfl
  | raise e => rfl
  | stmt q k ih => exact congrArg (Prog.stmt _) (funext ih)

theorem BeginsWith.throughout {exec : (q : Stmt) → σ → Except ε (Resp q) × σ}
    {P : Stmt → σ → Prop} {s : σ} (h : BeginsWith g p) (hp : p.Throughout exec P s) :
    g.Throughout exec P s := by
  obtain ⟨f, rfl⟩ := h
  induction g generalizing s with
  | ret c => trivial
  | raise e => trivial
  | stmt q k ih => exact ⟨hp.1, ih _ hp.2⟩

end BeginsWith

variable {δ : Type} (ann : Stmt → Prog Resp ε δ → Prop)

/-- After a statement that announces `g`, and returns, the program goes on by
running `g`. -/
def Announces : Prog Resp ε α → Prop
  | .ret _ => True
  | .raise _ => True
  | .stmt q k => (∀ g, ann q g → ∀ a, BeginsWith g (k (.ok a))) ∧ ∀ r, (k r).Announces

variable {ann}

theorem Issues.announces {p : Prog Resp ε α} (h : p.Issues fun q => ∀ g, ¬ ann q g) :
    p.Announces ann := by
  induction p with
  | ret a => trivial
  | raise e => trivial
  | stmt q k ih => exact ⟨fun g hg => absurd hg (h.1 g), fun r => ih r (h.2 r)⟩

theorem Announces.bind {K : α → Prop} {p : Prog Resp ε α} {f : α → Prog Resp ε β}
    (hp : p.Announces ann) (hK : p.Returns K) (hf : ∀ a, K a → (f a).Announces ann) :
    (p >>= f).Announces ann := by
  induction p with
  | ret a => exact hf a hK
  | raise e => trivial
  | stmt q k ih =>
      exact ⟨fun g hg a => (hp.1 g hg a).bind f, fun r => ih r (hp.2 r) (hK r)⟩

theorem Announces.attempt {p : Prog Resp ε α} {h : ε → Prog Resp ε α} (hp : p.Announces ann)
    (hh : ∀ e, (h e).Announces ann) : (tryCatch p h).Announces ann := by
  induction p with
  | ret a => trivial
  | raise e => exact hh e
  | stmt q k ih => exact ⟨fun g hg a => (hp.1 g hg a).attempt h, fun r => ih r (hp.2 r)⟩

theorem announces_compositional :
    Compositional fun α (p : Prog Resp ε α) => p.Announces ann where
  pure _ _ := trivial
  throw _ _ := trivial
  bind _ _ p _ hp hf := hp.bind p.returns_true fun a _ => hf a
  attempt _ _ _ hp hh := hp.attempt hh

theorem announces_call_bind {q : Stmt} {f : Resp q → Prog Resp ε α}
    (hq : ∀ g, ann q g → ∀ a, BeginsWith g (f a)) (hf : ∀ a, (f a).Announces ann) :
    (call q >>= f).Announces ann := by
  refine ⟨hq, fun r => ?_⟩
  cases r with
  | ok a => exact hf a
  | error e => trivial

theorem Announces.inr {Stmt' : Type} {Resp' : Stmt' → Type}
    {ann' : Stmt' ⊕ Stmt → Prog (Sum.elim Resp' Resp) ε δ → Prop}
    (hann : ∀ q g', ann' (.inr q) g' → ∃ g, g' = g.inr ∧ ann q g)
    {p : Prog Resp ε α} (hp : p.Announces ann) :
    (p.inr : Prog (Sum.elim Resp' Resp) ε α).Announces ann' := by
  induction p with
  | ret a => trivial
  | raise e => trivial
  | stmt q k ih =>
      refine ⟨fun g' hg' a => ?_, fun r => ih r (hp.2 r)⟩
      obtain ⟨g, rfl, hg⟩ := hann q g' hg'
      exact (hp.1 g hg a).inr

/-- What holds at all statements of a run holds at those of an announced
program. -/
theorem Announces.throughout {exec : (q : Stmt) → σ → Except ε (Resp q) × σ}
    {P : Stmt → σ → Prop} {p : Prog Resp ε α} {s : σ} (hp : p.Announces ann)
    (h : p.Throughout exec P s) :
    p.Throughout exec (fun q s => ∀ g, ann q g → ∀ a, (exec q s).1 = .ok a →
      g.Throughout exec P (exec q s).2) s := by
  induction p generalizing s with
  | ret a => trivial
  | raise e => trivial
  | stmt q k ih =>
      refine ⟨fun g hg a ha => ?_, ih _ (hp.2 _) h.2⟩
      have hrest := h.2
      rw [ha] at hrest
      exact (hp.1 g hg a).throughout hrest

end Prog

/-! ### A program alone -/

/-- **Rule for one program alone.** With nothing in between, a program that is
proved by `wp` issues every statement according to its `needs`. -/
theorem alone_of_wp {sem : C → (q : Stmt) → σ → Except ε (Resp q) × σ} {D : Rules Stmt C σ}
    (hrefl : ∀ s, D.rely s s) (hadmits : ∀ c q s, D.admits c q s) {p : Prog Resp ε α}
    {Q : Except ε α → σ → Prop} {s : σ} (choices : ℕ → C) (h : wp sem D p Q s) :
    p.Throughout (withChoices sem) (fun q x => D.needs (x.2 0) q x.1) (s, choices) := by
  induction p generalizing s choices with
  | ret a => trivial
  | raise e => trivial
  | stmt q k ih =>
      obtain ⟨hneeds, hrest⟩ := h s (hrefl s) (choices 0) (hadmits _ _ _)
      exact ⟨hneeds, ih _ _ hrest⟩

/-! ### Surroundings that act between the statements -/

/-- The surroundings act, then the statement is executed. -/
def disturbed (sem : C → (q : Stmt) → σ → Except ε (Resp q) × σ) (c : (σ → σ) × C) (q : Stmt)
    (s : σ) : Except ε (Resp q) × σ :=
  sem c.2 q (c.1 s)

/-- A state, and everything that the surroundings are going to decide. -/
abbrev Moment (σ C : Type) := σ × (ℕ → (σ → σ) × C)

namespace Moment

/-- The state in which the next statement is executed. -/
def state (x : Moment σ C) : σ := (x.2 0).1 x.1

def choice (x : Moment σ C) : C := (x.2 0).2

end Moment

variable {sem : C → (q : Stmt) → σ → Except ε (Resp q) × σ} {D : Rules Stmt C σ}

/-- What the surroundings keep to they keep to until the end. -/
theorem throughout_surround (sem : C → (q : Stmt) → σ → Except ε (Resp q) × σ)
    {R : σ → σ → Prop} (p : Prog Resp ε α) {x : Moment σ C}
    (hx : ∀ n s, R s ((x.2 n).1 s)) :
    p.Throughout (withChoices (disturbed sem))
      (fun _ (y : Moment σ C) => ∀ n s, R s ((y.2 n).1 s)) x := by
  induction p generalizing x with
  | ret a => trivial
  | raise e => trivial
  | stmt q k ih => exact ⟨hx, ih _ fun n => hx (n + 1)⟩

/-- **Rule for one program in its surroundings.** When the surroundings keep
to `rely`, a program that is proved by `wp` issues every statement according
to its `needs`, as long as the statements are admitted. -/
theorem throughout_of_wp
    (hself : ∀ c q s, D.rely s s → D.admits c q s → D.needs c q s →
      D.rely (sem c q s).2 (sem c q s).2)
    (hafter : ∀ a b, D.rely a b → D.rely b b)
    {p : Prog Resp ε α} {Q : Except ε α → σ → Prop} {x : Moment σ C}
    (hsurround : ∀ n s, D.rely s s → D.rely s ((x.2 n).1 s))
    (hx : D.rely x.1 x.1) (h : wp sem D p Q x.1)
    (hadm : p.Throughout (withChoices (disturbed sem))
      (fun q (x : Moment σ C) => D.admits x.choice q x.state) x) :
    p.Throughout (withChoices (disturbed sem))
        (fun q (x : Moment σ C) => D.needs x.choice q x.state) x ∧
      Q (p.run (withChoices (disturbed sem)) x).1 (p.run (withChoices (disturbed sem)) x).2.1 := by
  induction p generalizing x with
  | ret a => exact ⟨trivial, h⟩
  | raise e => exact ⟨trivial, h⟩
  | stmt q k ih =>
      have hmove : D.rely x.1 x.state := hsurround 0 x.1 hx
      obtain ⟨hneeds, hrest⟩ := h x.state hmove x.choice hadm.1
      have hnext := hself x.choice q x.state (hafter _ _ hmove) hadm.1 hneeds
      obtain ⟨hlater, hQ⟩ := ih _ (x := (withChoices (disturbed sem) q x).2)
        (fun n => hsurround (n + 1)) hnext hrest hadm.2
      exact ⟨⟨hneeds, hlater⟩, hQ⟩

end StatementProgram
