import Mathlib.Logic.Function.Basic
import Mathlib.Tactic.Common

/-!
Programs made of atomic statements.

A request handler talks to a shared store one statement at a time: it issues
a statement, waits for the answer or the exception, and goes on. `Prog` is
the tree of such conversations. The tree says nothing about what a statement
does; that is a semantics `sem`, and one tree is run under several of them:
alone, with some statements failing, or interleaved with other programs.

`sem c q s` executes the statement `q` in the state `s`. The first argument
is what the surroundings decide at that moment: whether the statement
fails, which fresh identifier is drawn, what a device reports.

`wp` is the one logic used for all of these. It is a weakest precondition
with interference: between two statements of the program the state may move
along `rely`, every statement that is issued must meet `needs`, and only steps
that satisfy `admits` are considered. With `rely` restricted to the identity
it is ordinary sequential reasoning (`run_of_wp`); with a transitive `rely`
that all participants respect it is reasoning about interleavings
(`Library.Interleaving`).
-/

namespace StatementProgram

/-- A conversation with the store: return, raise, or issue a statement and
continue with its answer. -/
inductive Prog {Stmt : Type} (Resp : Stmt → Type) (ε α : Type) : Type
  | ret (a : α)
  | raise (e : ε)
  | stmt (q : Stmt) (k : Except ε (Resp q) → Prog Resp ε α)

namespace Prog

variable {Stmt : Type} {Resp : Stmt → Type} {ε α β : Type}

/-- Issue one statement; a failing statement raises. -/
def call (q : Stmt) : Prog Resp ε (Resp q) :=
  .stmt q fun
    | .ok r => .ret r
    | .error e => .raise e

def bind : Prog Resp ε α → (α → Prog Resp ε β) → Prog Resp ε β
  | .ret a, f => f a
  | .raise e, _ => .raise e
  | .stmt q k, f => .stmt q fun r => (k r).bind f

def attempt : Prog Resp ε α → (ε → Prog Resp ε α) → Prog Resp ε α
  | .ret a, _ => .ret a
  | .raise e, h => h e
  | .stmt q k, h => .stmt q fun r => (k r).attempt h

instance : Monad (Prog Resp ε) where
  pure := .ret
  bind := bind

instance : MonadExceptOf ε (Prog Resp ε) where
  throw := .raise
  tryCatch := attempt

/-- `if c: raise e`. -/
def raiseIf (c : Prop) [Decidable c] (e : ε) : Prog Resp ε Unit :=
  if c then .raise e else .ret ()

/-- Use a program inside a larger language of statements. -/
def inl {Stmt' : Type} {Resp' : Stmt' → Type} :
    Prog Resp ε α → Prog (Sum.elim Resp Resp') ε α
  | .ret a => .ret a
  | .raise e => .raise e
  | .stmt q k => .stmt (.inl q) fun r => (k r).inl

def inr {Stmt' : Type} {Resp' : Stmt' → Type} :
    Prog Resp ε α → Prog (Sum.elim Resp' Resp) ε α
  | .ret a => .ret a
  | .raise e => .raise e
  | .stmt q k => .stmt (.inr q) fun r => (k r).inr

/-! ### Running alone -/

section Run

variable {σ : Type} (exec : (q : Stmt) → σ → Except ε (Resp q) × σ)

/-- Run a program to its end with nothing in between. -/
def run : Prog Resp ε α → σ → Except ε α × σ
  | .ret a, s => (.ok a, s)
  | .raise e, s => (.error e, s)
  | .stmt q k, s => (k (exec q s).1).run (exec q s).2

@[simp] theorem run_ret (a : α) (s : σ) :
    (Prog.ret a : Prog Resp ε α).run exec s = (.ok a, s) := rfl

@[simp] theorem run_pure (a : α) (s : σ) :
    (pure a : Prog Resp ε α).run exec s = (.ok a, s) := rfl

@[simp] theorem run_raise (e : ε) (s : σ) :
    (Prog.raise e : Prog Resp ε α).run exec s = (.error e, s) := rfl

@[simp] theorem run_throw (e : ε) (s : σ) :
    (throw e : Prog Resp ε α).run exec s = (.error e, s) := rfl

@[simp] theorem run_stmt (q : Stmt) (k : Except ε (Resp q) → Prog Resp ε α) (s : σ) :
    (Prog.stmt q k).run exec s = (k (exec q s).1).run exec (exec q s).2 := rfl

@[simp] theorem run_call (q : Stmt) (s : σ) :
    (call q : Prog Resp ε (Resp q)).run exec s = exec q s := by
  rw [call, run_stmt]
  obtain ⟨r, s'⟩ := exec q s
  cases r <;> rfl

@[simp] theorem run_bind (p : Prog Resp ε α) (f : α → Prog Resp ε β) (s : σ) :
    (p >>= f).run exec s =
      match p.run exec s with
      | (.ok a, s') => (f a).run exec s'
      | (.error e, s') => (.error e, s') := by
  induction p generalizing s with
  | ret a => rfl
  | raise e => rfl
  | stmt q k ih => exact ih (exec q s).1 (exec q s).2

/-- A sequence that returns has returned from its first part. -/
theorem run_bind_ok {p : Prog Resp ε α} {f : α → Prog Resp ε β} {s : σ} {b : β}
    (h : ((p >>= f).run exec s).1 = .ok b) :
    ∃ a, (p.run exec s).1 = .ok a ∧ (p >>= f).run exec s = (f a).run exec (p.run exec s).2 := by
  rw [run_bind] at h ⊢
  generalize p.run exec s = out at h ⊢
  obtain ⟨r, s'⟩ := out
  cases r with
  | ok a => exact ⟨a, rfl, rfl⟩
  | error e => cases h

/-- A run of a sequence that returns is one of each part. -/
theorem run_bind_eq_ok {p : Prog Resp ε α} {f : α → Prog Resp ε β} {s s' : σ} {b : β}
    (h : (p >>= f).run exec s = (.ok b, s')) :
    ∃ a s₁, p.run exec s = (.ok a, s₁) ∧ (f a).run exec s₁ = (.ok b, s') := by
  obtain ⟨a, ha, hrest⟩ := run_bind_ok exec (congrArg Prod.fst h)
  exact ⟨a, (p.run exec s).2, Prod.ext ha rfl, hrest.symm.trans h⟩

@[simp] theorem run_attempt (p : Prog Resp ε α) (h : ε → Prog Resp ε α) (s : σ) :
    (tryCatch p h).run exec s =
      match p.run exec s with
      | (.ok a, s') => (.ok a, s')
      | (.error e, s') => (h e).run exec s' := by
  induction p generalizing s with
  | ret a => rfl
  | raise e => rfl
  | stmt q k ih => exact ih (exec q s).1 (exec q s).2

/-- When the exception handler only raises, a program that returns has done
without it. -/
theorem run_attempt_ok {p : Prog Resp ε α} {h : ε → Prog Resp ε α} {s : σ} {a : α}
    (hraises : ∀ e s' b, ((h e).run exec s').1 ≠ .ok b)
    (hok : ((tryCatch p h).run exec s).1 = .ok a) :
    (p.run exec s).1 = .ok a ∧ (tryCatch p h).run exec s = p.run exec s := by
  rw [run_attempt] at hok ⊢
  generalize p.run exec s = out at hok ⊢
  obtain ⟨r, s'⟩ := out
  cases r with
  | ok b => exact ⟨hok, rfl⟩
  | error e => exact absurd hok (hraises e s' a)

@[simp] theorem run_raiseIf (c : Prop) [Decidable c] (e : ε) (s : σ) :
    (raiseIf c e : Prog Resp ε Unit).run exec s =
      if c then (.error e, s) else (.ok (), s) := by
  unfold raiseIf
  split <;> rfl

theorem run_raiseIf_ok {c : Prop} [Decidable c] {e : ε} {s : σ} {a : Unit}
    (h : ((raiseIf c e : Prog Resp ε Unit).run exec s).1 = .ok a) :
    ¬ c ∧ ((raiseIf c e : Prog Resp ε Unit).run exec s).2 = s := by
  rw [run_raiseIf] at h ⊢
  split at h
  · cases h
  · exact ⟨‹_›, by rw [if_neg ‹_›]⟩

end Run

end Prog

/-! ### The weakest precondition -/

/-- What a proof about a program assumes of its surroundings and owes them. -/
structure Rules (Stmt C σ : Type) where
  /-- How the state may move between two statements of the program. -/
  rely : σ → σ → Prop
  /-- The steps that are considered at all. -/
  admits : C → Stmt → σ → Prop
  /-- What has to hold when a statement is issued. -/
  needs : C → Stmt → σ → Prop

variable {Stmt : Type} {Resp : Stmt → Type} {ε α β C σ : Type}
variable (sem : C → (q : Stmt) → σ → Except ε (Resp q) × σ) (D : Rules Stmt C σ)

def wp : Prog Resp ε α → (Except ε α → σ → Prop) → σ → Prop
  | .ret a, Q, s => Q (.ok a) s
  | .raise e, Q, s => Q (.error e) s
  | .stmt q k, Q, s => ∀ s', D.rely s s' → ∀ c, D.admits c q s' →
      D.needs c q s' ∧ wp (k (sem c q s').1) Q (sem c q s').2

@[simp] theorem wp_ret (a : α) (Q : Except ε α → σ → Prop) (s : σ) :
    wp sem D (.ret a : Prog Resp ε α) Q s ↔ Q (.ok a) s := Iff.rfl

@[simp] theorem wp_pure (a : α) (Q : Except ε α → σ → Prop) (s : σ) :
    wp sem D (pure a : Prog Resp ε α) Q s ↔ Q (.ok a) s := Iff.rfl

@[simp] theorem wp_raise (e : ε) (Q : Except ε α → σ → Prop) (s : σ) :
    wp sem D (.raise e : Prog Resp ε α) Q s ↔ Q (.error e) s := Iff.rfl

@[simp] theorem wp_throw (e : ε) (Q : Except ε α → σ → Prop) (s : σ) :
    wp sem D (throw e : Prog Resp ε α) Q s ↔ Q (.error e) s := Iff.rfl

theorem wp_stmt (q : Stmt) (k : Except ε (Resp q) → Prog Resp ε α)
    (Q : Except ε α → σ → Prop) (s : σ) :
    wp sem D (.stmt q k) Q s ↔ ∀ s', D.rely s s' → ∀ c, D.admits c q s' →
      D.needs c q s' ∧ wp sem D (k (sem c q s').1) Q (sem c q s').2 := Iff.rfl

@[simp] theorem wp_call (q : Stmt) (Q : Except ε (Resp q) → σ → Prop) (s : σ) :
    wp sem D (.call q : Prog Resp ε (Resp q)) Q s ↔
      ∀ s', D.rely s s' → ∀ c, D.admits c q s' →
        D.needs c q s' ∧ Q (sem c q s').1 (sem c q s').2 := by
  rw [Prog.call, wp_stmt]
  refine forall₄_congr fun s' _ c _ => and_congr_right fun _ => ?_
  cases (sem c q s').1 <;> rfl

@[simp] theorem wp_bind (p : Prog Resp ε α) (f : α → Prog Resp ε β)
    (Q : Except ε β → σ → Prop) (s : σ) :
    wp sem D (p >>= f) Q s ↔
      wp sem D p (fun r s' =>
        match r with
        | .ok a => wp sem D (f a) Q s'
        | .error e => Q (.error e) s') s := by
  induction p generalizing s with
  | ret a => rfl
  | raise e => rfl
  | stmt q k ih =>
      exact forall₄_congr fun s' _ c _ => and_congr_right fun _ => ih _ _

@[simp] theorem wp_attempt (p : Prog Resp ε α) (h : ε → Prog Resp ε α)
    (Q : Except ε α → σ → Prop) (s : σ) :
    wp sem D (tryCatch p h) Q s ↔
      wp sem D p (fun r s' =>
        match r with
        | .ok a => Q (.ok a) s'
        | .error e => wp sem D (h e) Q s') s := by
  induction p generalizing s with
  | ret a => rfl
  | raise e => rfl
  | stmt q k ih =>
      exact forall₄_congr fun s' _ c _ => and_congr_right fun _ => ih _ _

@[simp] theorem wp_raiseIf (c : Prop) [Decidable c] (e : ε)
    (Q : Except ε Unit → σ → Prop) (s : σ) :
    wp sem D (Prog.raiseIf c e : Prog Resp ε Unit) Q s ↔
      (c → Q (.error e) s) ∧ (¬ c → Q (.ok ()) s) := by
  unfold Prog.raiseIf
  split <;> rename_i h <;> simp [h]

variable {sem D}

/-- The postcondition may be weakened. -/
theorem wp.mono {p : Prog Resp ε α} {Q Q' : Except ε α → σ → Prop} {s : σ}
    (h : wp sem D p Q s) (hQ : ∀ r s', Q r s' → Q' r s') : wp sem D p Q' s := by
  induction p generalizing s with
  | ret a => exact hQ _ _ h
  | raise e => exact hQ _ _ h
  | stmt q k ih =>
      intro s' hs c hc
      exact ⟨(h s' hs c hc).1, ih _ (h s' hs c hc).2⟩

/-- Sequencing. What the first part ends in lets the second part go on, and is
enough where the first part fails. -/
theorem wp.bind {p : Prog Resp ε α} {f : α → Prog Resp ε β} {Q₁ : Except ε α → σ → Prop}
    {Q : Except ε β → σ → Prop} {s : σ} (hp : wp sem D p Q₁ s)
    (hok : ∀ a s', Q₁ (.ok a) s' → wp sem D (f a) Q s')
    (herror : ∀ e s', Q₁ (.error e) s' → Q (.error e) s') : wp sem D (p >>= f) Q s := by
  rw [wp_bind]
  refine hp.mono fun r s' hr => ?_
  cases r with
  | ok a => exact hok a s' hr
  | error e => exact herror e s' hr

/-- Catching. What the body ends in is enough where it returns, and lets the
handler go on where it fails. -/
theorem wp.attempt {p : Prog Resp ε α} {h : ε → Prog Resp ε α} {Q₁ Q : Except ε α → σ → Prop}
    {s : σ} (hp : wp sem D p Q₁ s) (hok : ∀ a s', Q₁ (.ok a) s' → Q (.ok a) s')
    (herror : ∀ e s', Q₁ (.error e) s' → wp sem D (h e) Q s') :
    wp sem D (tryCatch p h) Q s := by
  rw [wp_attempt]
  refine hp.mono fun r s' hr => ?_
  cases r with
  | ok a => exact hok a s' hr
  | error e => exact herror e s' hr

/-- A proof survives interference, when interference composes. -/
theorem wp.interfere (htrans : ∀ a b c, D.rely a b → D.rely b c → D.rely a c)
    {p : Prog Resp ε α} {Q : Except ε α → σ → Prop} {s s' : σ}
    (hQ : ∀ r a b, D.rely a b → Q r a → Q r b)
    (h : wp sem D p Q s) (hs : D.rely s s') : wp sem D p Q s' := by
  cases p with
  | ret a => exact hQ _ _ _ hs h
  | raise e => exact hQ _ _ _ hs h
  | stmt q k => exact fun s'' hs' => h s'' (htrans _ _ _ hs hs')

/-- A program that is proved in its own language is proved in a larger one. The
part of the state that it works on is `view s`; `J` is what is known of the
whole meanwhile. -/
theorem wp.inr {Stmt' C' σ' : Type} {Resp' : Stmt' → Type}
    {sem' : C' → (q : Stmt' ⊕ Stmt) → σ' → Except ε (Sum.elim Resp' Resp q) × σ'}
    {D' : Rules (Stmt' ⊕ Stmt) C' σ'} (view : σ' → σ) (pick : C' → C) {J : σ' → Prop}
    (hanswer : ∀ c q s, (sem' c (.inr q) s).1 = (sem (pick c) q (view s)).1)
    (hstate : ∀ c q s, view (sem' c (.inr q) s).2 = (sem (pick c) q (view s)).2)
    (hframe : ∀ c q s, J s → J (sem' c (.inr q) s).2)
    (hrely : ∀ a b, J a → D'.rely a b → D.rely (view a) (view b) ∧ J b)
    (hadmits : ∀ c q s, J s → D'.admits c (.inr q) s → D.admits (pick c) q (view s))
    (hneeds : ∀ c q s, J s → D.needs (pick c) q (view s) → D'.needs c (.inr q) s)
    {p : Prog Resp ε α} {Q : Except ε α → σ → Prop} {s : σ'} (hJ : J s)
    (h : wp sem D p Q (view s)) :
    wp sem' D' (p.inr : Prog (Sum.elim Resp' Resp) ε α) (fun r s' => J s' ∧ Q r (view s')) s := by
  induction p generalizing s with
  | ret a => exact ⟨hJ, h⟩
  | raise e => exact ⟨hJ, h⟩
  | stmt q k ih =>
      intro s' hs' c hadm
      obtain ⟨hmoved, hJ'⟩ := hrely s s' hJ hs'
      obtain ⟨hneed, hrest⟩ := h (view s') hmoved (pick c) (hadmits c q s' hJ' hadm)
      refine ⟨hneeds c q s' hJ' hneed, ?_⟩
      rw [hanswer]
      refine ih _ (hframe c q s' hJ') ?_
      rw [hstate]
      exact hrest

/-- A program whose statements keep what is relied on ends in a later state. -/
theorem wp.and_rely (htrans : ∀ a b c, D.rely a b → D.rely b c → D.rely a c)
    (hself : ∀ a b, D.rely a b → D.rely b b)
    (hstmt : ∀ c q s, D.rely s s → D.admits c q s → D.needs c q s → D.rely s (sem c q s).2)
    {p : Prog Resp ε α} {Q : Except ε α → σ → Prop} {s : σ} (hs : D.rely s s)
    (h : wp sem D p Q s) : wp sem D p (fun r s' => Q r s' ∧ D.rely s s') s := by
  suffices H : ∀ a b, D.rely a b → wp sem D p Q b →
      wp sem D p (fun r s' => Q r s' ∧ D.rely a s') b from H s s hs h
  clear h hs
  intro a b hab h
  induction p generalizing b with
  | ret x => exact ⟨h, hab⟩
  | raise e => exact ⟨h, hab⟩
  | stmt q k ih =>
      intro b' hb' c hc
      obtain ⟨hneeds, hrest⟩ := h b' hb' c hc
      have hmove := hstmt c q b' (hself _ _ hb') hc hneeds
      exact ⟨hneeds, ih _ _ (htrans _ _ _ (htrans _ _ _ hab hb') hmove) hrest⟩

/-- What every step keeps is kept by a program. -/
theorem wp.and_kept {I : σ → Prop} (hrely : ∀ a b, D.rely a b → I a → I b)
    (hsem : ∀ c q s, I s → I (sem c q s).2) {p : Prog Resp ε α} {Q : Except ε α → σ → Prop}
    {s : σ} (hI : I s) (h : wp sem D p Q s) : wp sem D p (fun r s' => Q r s' ∧ I s') s := by
  induction p generalizing s with
  | ret x => exact ⟨h, hI⟩
  | raise e => exact ⟨h, hI⟩
  | stmt q k ih =>
      intro s' hs c hc
      obtain ⟨hneeds, hrest⟩ := h s' hs c hc
      exact ⟨hneeds, ih _ (hsem c q s' (hrely s s' hs hI)) hrest⟩

/-! ### Programs that only issue some of the statements -/

/-- Every statement that the program can issue satisfies `P`. -/
def Prog.Issues (P : Stmt → Prop) : Prog Resp ε α → Prop
  | .ret _ => True
  | .raise _ => True
  | .stmt q k => P q ∧ ∀ r, (k r).Issues P

section Issues

variable {P : Stmt → Prop} {q : Stmt}

@[simp] theorem Prog.issues_pure (a : α) : (pure a : Prog Resp ε α).Issues P := trivial

@[simp] theorem Prog.issues_throw (e : ε) : (throw e : Prog Resp ε α).Issues P := trivial

@[simp] theorem Prog.issues_call (q : Stmt) :
    (Prog.call q : Prog Resp ε (Resp q)).Issues P ↔ P q := by
  refine ⟨And.left, fun h => ⟨h, fun r => ?_⟩⟩
  cases r <;> trivial

theorem Prog.Issues.bind {p : Prog Resp ε α} {f : α → Prog Resp ε β} (hp : p.Issues P)
    (hf : ∀ a, (f a).Issues P) : (p >>= f).Issues P := by
  induction p with
  | ret a => exact hf a
  | raise e => trivial
  | stmt q k ih => exact ⟨hp.1, fun r => ih r (hp.2 r)⟩

theorem Prog.Issues.attempt {p : Prog Resp ε α} {h : ε → Prog Resp ε α} (hp : p.Issues P)
    (hh : ∀ e, (h e).Issues P) : (tryCatch p h).Issues P := by
  induction p with
  | ret a => trivial
  | raise e => exact hh e
  | stmt q k ih => exact ⟨hp.1, fun r => ih r (hp.2 r)⟩

@[simp] theorem Prog.issues_raiseIf (c : Prop) [Decidable c] (e : ε) :
    (Prog.raiseIf c e : Prog Resp ε Unit).Issues P := by
  unfold Prog.raiseIf
  split <;> trivial

theorem Prog.Issues.mono {P' : Stmt → Prop} (hP : ∀ q, P q → P' q) {p : Prog Resp ε α}
    (hp : p.Issues P) : p.Issues P' := by
  induction p with
  | ret a => trivial
  | raise e => trivial
  | stmt q k ih => exact ⟨hP q hp.1, fun r => ih r (hp.2 r)⟩

/-- Every value that the program can return satisfies `K`. -/
def Prog.Returns (K : α → Prop) : Prog Resp ε α → Prop
  | .ret a => K a
  | .raise _ => True
  | .stmt _ k => ∀ r, (k r).Returns K

theorem Prog.returns_true (p : Prog Resp ε α) : p.Returns fun _ => True := by
  induction p with
  | ret a => trivial
  | raise e => trivial
  | stmt q k ih => exact fun r => ih r

theorem Prog.returns_raiseIf (c : Prop) [Decidable c] (e : ε) :
    (Prog.raiseIf c e : Prog Resp ε Unit).Returns fun _ => ¬ c := by
  unfold Prog.raiseIf
  split
  · trivial
  · assumption

theorem Prog.Returns.mono {K K' : α → Prop} (hK : ∀ a, K a → K' a) {p : Prog Resp ε α}
    (hp : p.Returns K) : p.Returns K' := by
  induction p with
  | ret a => exact hK a hp
  | raise e => trivial
  | stmt q k ih => exact fun r => ih r (hp r)

theorem Prog.Returns.bind {K : α → Prop} {K' : β → Prop} {p : Prog Resp ε α}
    {f : α → Prog Resp ε β} (hp : p.Returns K) (hf : ∀ a, K a → (f a).Returns K') :
    (p >>= f).Returns K' := by
  induction p with
  | ret a => exact hf a hp
  | raise e => trivial
  | stmt q k ih => exact fun r => ih r (hp r)

/-- What comes second may use what the first part can return. -/
theorem Prog.Issues.bind_returns {K : α → Prop} {p : Prog Resp ε α} {f : α → Prog Resp ε β}
    (hp : p.Issues P) (hK : p.Returns K) (hf : ∀ a, K a → (f a).Issues P) :
    (p >>= f).Issues P := by
  induction p with
  | ret a => exact hf a hK
  | raise e => trivial
  | stmt q k ih => exact ⟨hp.1, fun r => ih r (hp.2 r) (hK r)⟩

/-- A program that is used in a larger language issues what it issues. -/
theorem Prog.Issues.inr {Stmt' : Type} {Resp' : Stmt' → Type} {P' : Stmt' ⊕ Stmt → Prop}
    (hP : ∀ q, P q → P' (.inr q)) {p : Prog Resp ε α} (hp : p.Issues P) :
    (p.inr : Prog (Sum.elim Resp' Resp) ε α).Issues P' := by
  induction p with
  | ret a => trivial
  | raise e => trivial
  | stmt q k ih => exact ⟨hP q hp.1, fun r => ih r (hp.2 r)⟩

theorem Prog.issues_inr {Stmt' : Type} {Resp' : Stmt' → Type} {P : Stmt' ⊕ Stmt → Prop}
    (hP : ∀ q, P (.inr q)) (p : Prog Resp ε α) :
    (p.inr : Prog (Sum.elim Resp' Resp) ε α).Issues P := by
  induction p with
  | ret a => trivial
  | raise e => trivial
  | stmt q k ih => exact ⟨hP q, ih⟩

/-- A program whose statements need nothing needs nothing. -/
theorem wp.of_issues_needs (hP : ∀ c q s, P q → D.needs c q s) {p : Prog Resp ε α}
    (hp : p.Issues P) (s : σ) : wp sem D p (fun _ _ => True) s := by
  induction p generalizing s with
  | ret a => trivial
  | raise e => trivial
  | stmt q k ih => exact fun s' _ c _ => ⟨hP c q s' hp.1, ih _ (hp.2 _) _⟩

/-- A program whose statements need only what every step keeps. -/
theorem wp.of_issues_kept {J : σ → Prop} (hrely : ∀ a b, D.rely a b → J a → J b)
    (hsem : ∀ c q s, J s → J (sem c q s).2) (hP : ∀ c q s, P q → J s → D.needs c q s)
    {p : Prog Resp ε α} (hp : p.Issues P) {s : σ} (hJ : J s) :
    wp sem D p (fun _ _ => True) s := by
  induction p generalizing s with
  | ret a => trivial
  | raise e => trivial
  | stmt q k ih =>
      intro s' hs c _
      have hJ' := hrely s s' hs hJ
      exact ⟨hP c q s' hp.1 hJ', ih _ (hp.2 _) (hsem c q s' hJ')⟩

theorem wp.of_issues_returns (hP : ∀ c q s, P q → D.needs c q s) {K : α → Prop}
    {p : Prog Resp ε α} (hp : p.Issues P) (hK : p.Returns K) (s : σ) :
    wp sem D p (fun r _ => ∀ a, r = .ok a → K a) s := by
  induction p generalizing s with
  | ret a =>
      intro b hb
      injection hb with hb
      exact hb ▸ hK
  | raise e => exact fun _ hb => nomatch hb
  | stmt q k ih => exact fun s' _ c _ => ⟨hP c q s' hp.1, ih _ (hp.2 _) (hK _) _⟩

/-- A program whose statements keep what is relied on has every postcondition
that holds of all later states. -/
theorem wp.of_issues (htrans : ∀ a b c, D.rely a b → D.rely b c → D.rely a c)
    (hself : ∀ a b, D.rely a b → D.rely b b)
    (hP : ∀ c q s, P q → D.rely s s → D.admits c q s →
      D.needs c q s ∧ D.rely s (sem c q s).2)
    {p : Prog Resp ε α} (hp : p.Issues P) {s : σ} (hs : D.rely s s) {Q : Except ε α → σ → Prop}
    (hQ : ∀ r s', D.rely s s' → Q r s') : wp sem D p Q s := by
  suffices H : ∀ a, D.rely s a → wp sem D p Q a from H s hs
  induction p with
  | ret a => exact fun a ha => hQ _ _ ha
  | raise e => exact fun a ha => hQ _ _ ha
  | stmt q k ih =>
      intro a ha s' hs' c hc
      have hs'' : D.rely s s' := htrans _ _ _ ha hs'
      obtain ⟨hneeds, hmove⟩ := hP c q s' hp.1 (hself _ _ hs') hc
      exact ⟨hneeds, ih _ (hp.2 _) _ (htrans _ _ _ hs'' hmove)⟩

/-- A run keeps what each of its statements keeps. -/
theorem Prog.Issues.run_keeps {τ : Type} (exec : (q : Stmt) → σ → Except ε (Resp q) × σ)
    (f : σ → τ) (hP : ∀ q s, P q → f (exec q s).2 = f s) {p : Prog Resp ε α} (hp : p.Issues P)
    (s : σ) : f (p.run exec s).2 = f s := by
  induction p generalizing s with
  | ret a => rfl
  | raise e => rfl
  | stmt q k ih => exact (ih _ (hp.2 _) _).trans (hP q s hp.1)

end Issues

/-- A property of programs that the ways of combining them keep. -/
structure Compositional (Φ : ∀ α : Type, Prog Resp ε α → Prop) : Prop where
  pure : ∀ (α : Type) (a : α), Φ α (pure a)
  throw : ∀ (α : Type) (e : ε), Φ α (throw e)
  bind : ∀ (α β : Type) (p : Prog Resp ε α) (f : α → Prog Resp ε β),
    Φ α p → (∀ a, Φ β (f a)) → Φ β (p >>= f)
  attempt : ∀ (α : Type) (p : Prog Resp ε α) (h : ε → Prog Resp ε α),
    Φ α p → (∀ e, Φ α (h e)) → Φ α (tryCatch p h)

theorem Prog.issues_compositional (P : Stmt → Prop) :
    Compositional fun α (p : Prog Resp ε α) => p.Issues P where
  pure _ _ := trivial
  throw _ _ := trivial
  bind _ _ _ _ hp hf := hp.bind hf
  attempt _ _ _ hp hh := hp.attempt hh

/-! ### Sequential runs -/

/-- Execute with the decisions of the surroundings drawn from a stream. -/
def withChoices (sem : C → (q : Stmt) → σ → Except ε (Resp q) × σ) (q : Stmt)
    (s : σ × (ℕ → C)) : Except ε (Resp q) × (σ × (ℕ → C)) :=
  ((sem (s.2 0) q s.1).1, ((sem (s.2 0) q s.1).2, fun n => s.2 (n + 1)))

/-- A run uses up a beginning of the stream. -/
theorem run_withChoices_shift (sem : C → (q : Stmt) → σ → Except ε (Resp q) × σ)
    (p : Prog Resp ε α) (s : σ) (c : ℕ → C) :
    ∃ k, (p.run (withChoices sem) (s, c)).2.2 = fun n => c (n + k) := by
  induction p generalizing s c with
  | ret a => exact ⟨0, rfl⟩
  | raise e => exact ⟨0, rfl⟩
  | stmt q k ih =>
      obtain ⟨m, hm⟩ := ih _ (sem (c 0) q s).2 fun n => c (n + 1)
      exact ⟨m + 1, hm⟩

/-- **Sequential rule.** A program that runs alone ends in its postcondition,
and `rely`, read as an invariant on single states, is kept. -/
theorem run_of_wp
    (hself : ∀ c q s, D.rely s s → D.admits c q s → D.needs c q s →
      D.rely (sem c q s).2 (sem c q s).2)
    (hadmits : ∀ c q s, D.admits c q s)
    {p : Prog Resp ε α} {Q : Except ε α → σ → Prop} {s : σ} (choices : ℕ → C)
    (hs : D.rely s s) (h : wp sem D p Q s) :
    let out := p.run (withChoices sem) (s, choices)
    Q out.1 out.2.1 ∧ D.rely out.2.1 out.2.1 := by
  induction p generalizing s choices with
  | ret a => exact ⟨h, hs⟩
  | raise e => exact ⟨h, hs⟩
  | stmt q k ih =>
      obtain ⟨hneeds, hrest⟩ := h s hs (choices 0) (hadmits _ _ _)
      exact ih _ _ (hself _ _ _ hs (hadmits _ _ _) hneeds) hrest

end StatementProgram
