import DiepLab.Automation.Obligations

/-!
Runs of the engine.

A run is a list of calls, ticks and patches. A call is a program in its
surroundings, which act in front of every statement and come with the call:
other requests, the master flags, the network.
-/

namespace DiepLab.Automation

open StatementProgram Controls

variable {P D W WC WStmt : Type} {WResp : WStmt → Type}
variable {wsem : WC → (q : WStmt) → W → Except Exc (WResp q) × W}
variable {handlers : Registry P D WResp} {threshold : ℤ} {policies : PolicyRegistry P D WResp}

/-- What the surroundings decide during one call. -/
abbrev Surrounding (P D W WC : Type) :=
  ℕ → (Engine P D W → Engine P D W) × (AutoChoice × ControlChoice × WC)

abbrev EngineMoment (P D W WC : Type) :=
  Moment (Engine P D W) (AutoChoice × ControlChoice × WC)

/-- A condition on the statement and the state in which it is executed. -/
abbrev atState (T : AutoStmt P D ⊕ (ControlStmt P D ⊕ WStmt) → Engine P D W → Prop)
    (q : AutoStmt P D ⊕ (ControlStmt P D ⊕ WStmt)) (x : EngineMoment P D W WC) : Prop :=
  T q x.state

/-- One statement of a call, after the surroundings. -/
abbrev engineRun (wsem : WC → (q : WStmt) → W → Except Exc (WResp q) × W) :=
  withChoices (disturbed (engineSem (P := P) (D := D) wsem))

inductive EngineCall (P D W WC : Type) where
  | tick (c : Surrounding P D W WC)
  | patch (policyId : String) (body : PolicyPatch) (principal : Principal)
      (c : Surrounding P D W WC)

namespace EngineCall

def surrounding : EngineCall P D W WC → Surrounding P D W WC
  | .tick c => c
  | .patch _ _ _ c => c

variable (handlers threshold policies)

def prog : EngineCall P D W WC → EngineProg P D WResp Unit
  | .tick _ => do
      let _ ← Automation.tick handlers threshold policies
      pure ()
  | .patch policyId body principal _ => do
      let _ ← patchPolicy policyId body principal
      pure ()

/-- **One call.** Its tick is proved; a patch works on the engine's own tables. -/
theorem wp_prog {E : EngineRules P D WStmt WC W} (htables : ∀ q, InTables q → Harmless E q)
    (htick : ∀ s, wp (engineSem wsem) E (Automation.tick handlers threshold policies)
      (fun _ _ => True) s) (call : EngineCall P D W WC) (s : Engine P D W) :
    wp (engineSem wsem) E (call.prog handlers threshold policies) (fun _ _ => True) s := by
  cases call with
  | tick c => exact wp.bind (htick s) (fun _ _ _ => trivial) fun _ _ _ => trivial
  | patch policyId body principal c =>
      exact wp.of_issues_needs (fun c q s hq => htables q hq c s)
        ((patchPolicy_issues policyId body principal).bind fun _ => Prog.issues_pure _) s

variable (wsem)

/-- A call begins with no proposal under way. -/
def start (call : EngineCall P D W WC) (s : Engine P D W) : EngineMoment P D W WC :=
  ({ s with current := none }, call.surrounding)

/-- The state after the call. -/
def after (call : EngineCall P D W WC) (s : Engine P D W) : Engine P D W :=
  ((call.prog handlers threshold policies).run (engineRun wsem) (call.start s)).2.1

/-- Every statement of the call satisfies `T` at the moment it is issued. -/
def Throughout (T : AutoStmt P D ⊕ (ControlStmt P D ⊕ WStmt) → EngineMoment P D W WC → Prop)
    (call : EngineCall P D W WC) (s : Engine P D W) : Prop :=
  (call.prog handlers threshold policies).Throughout (engineRun wsem) T (call.start s)

/-- The same of one call after the other. -/
def AllThroughout (T : AutoStmt P D ⊕ (ControlStmt P D ⊕ WStmt) → EngineMoment P D W WC → Prop) :
    Engine P D W → List (EngineCall P D W WC) → Prop
  | _, [] => True
  | s, call :: calls =>
      call.Throughout wsem handlers threshold policies T s ∧
        AllThroughout T (call.after wsem handlers threshold policies s) calls

variable (T : AutoStmt P D ⊕ (ControlStmt P D ⊕ WStmt) → EngineMoment P D W WC → Prop)

instance [∀ q x, Decidable (T q x)] (call : EngineCall P D W WC) (s : Engine P D W) :
    Decidable (call.Throughout wsem handlers threshold policies T s) := by
  unfold EngineCall.Throughout
  infer_instance

instance decidableAllThroughout [∀ q x, Decidable (T q x)] :
    (s : Engine P D W) → (calls : List (EngineCall P D W WC)) →
      Decidable (AllThroughout wsem handlers threshold policies T s calls)
  | _, [] => isTrue trivial
  | s, call :: calls =>
      have := decidableAllThroughout (call.after wsem handlers threshold policies s) calls
      inferInstanceAs (Decidable (call.Throughout wsem handlers threshold policies T s ∧ _))

variable {T : AutoStmt P D ⊕ (ControlStmt P D ⊕ WStmt) → EngineMoment P D W WC → Prop}

theorem allThroughout_of_forall {calls : List (EngineCall P D W WC)}
    (hcall : ∀ call ∈ calls, ∀ s, call.Throughout wsem handlers threshold policies T s)
    (s : Engine P D W) : AllThroughout wsem handlers threshold policies T s calls := by
  induction calls generalizing s with
  | nil => trivial
  | cons call calls ih =>
      rw [List.forall_mem_cons] at hcall
      exact ⟨hcall.1 s, ih hcall.2 _⟩

/-- What follows for every call follows for the run. -/
theorem allThroughout_of_call {A : AutoStmt P D ⊕ (ControlStmt P D ⊕ WStmt) →
      EngineMoment P D W WC → Prop} {calls : List (EngineCall P D W WC)}
    (hcall : ∀ call ∈ calls, ∀ s, call.Throughout wsem handlers threshold policies A s →
      call.Throughout wsem handlers threshold policies T s) {s : Engine P D W}
    (h : AllThroughout wsem handlers threshold policies A s calls) :
    AllThroughout wsem handlers threshold policies T s calls := by
  induction calls generalizing s with
  | nil => trivial
  | cons call calls ih =>
      rw [List.forall_mem_cons] at hcall
      exact ⟨hcall.1 s h.1, ih hcall.2 h.2⟩

end EngineCall

/-- Calm surroundings. -/
def calmly {P D W WC : Type} (wc : WC) : Surrounding P D W WC :=
  fun _ => (id, {}, { uuid := "a1" }, wc)

end DiepLab.Automation

