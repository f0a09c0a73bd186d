import DiepLab.Library.Patches
import DiepLab.Microgrid.Driver
import DiepLab.Sunspec.RoundTrip

/-!
Commands that write registers in several requests.

A request that fails ends the command, which then says FAILED; what has been written until
then stays written. So a failed command has changed nothing exactly if it wrote what was
there (`failed_unchanged_iff`).
-/

namespace DiepLab.Sunspec

open Microgrid (CommandResult acked commandFailed)
open Requests

/-- `str(exc)`. -/
def PyExc.text : PyExc → String
  | .valueError text | .typeError text | .ioError text | .structError text
  | .overflowError text => text
  | .indexError => "list index out of range"

/-- An address, and the values from there on. -/
abbrev RegisterWrite := ℕ × List UInt16

/-- What a command comes to: a result, or requests. The values of a request are made as it
is its turn, and may raise. -/
abbrev Command := Except PyExc (CommandResult ⊕ List (Except PyExc RegisterWrite))

def Registers.write (registers : Registers) (w : RegisterWrite) : Registers :=
  registers.setFrom w.1 w.2

/-- The requests one after the other, up to the first that fails. -/
def writeAll (outcome : ℕ → Outcome PyExc) (requests : List (Except PyExc RegisterWrite))
    (registers : Registers) : Option PyExc × Registers :=
  let (raised, effects) := attempt outcome 0 requests
  (raised, effects.foldl Registers.write registers)

/-- `execute_command`; `failure` is what it says before the text of an exception. -/
def execute (failure : String) (outcome : ℕ → Outcome PyExc) (command : Command)
    (registers : Registers) : Except PyExc CommandResult × Registers :=
  match command with
  | .error raised => (.error raised, registers)
  | .ok (.inl result) => (.ok result, registers)
  | .ok (.inr requests) =>
      match writeAll outcome requests registers with
      | (none, registers) => (.ok acked, registers)
      | (some raised, registers) =>
          (.ok (commandFailed (failure ++ ": " ++ PyExc.text raised)), registers)

/-! ### Writes as patches -/

/-- What a write gives to the addresses. -/
def patchOf (w : RegisterWrite) : Patch ℕ UInt16 := fun a =>
  if w.1 ≤ a then w.2[a - w.1]? else none

/-- The ranges of two writes do not meet. -/
def Separate (v w : RegisterWrite) : Prop := v.1 + v.2.length ≤ w.1 ∨ w.1 + w.2.length ≤ v.1

instance (v w : RegisterWrite) : Decidable (Separate v w) := inferInstanceAs (Decidable (_ ∨ _))

theorem patchOf_eq_none {w : RegisterWrite} {a : ℕ} (h : a < w.1 ∨ w.1 + w.2.length ≤ a) :
    patchOf w a = none := by
  unfold patchOf
  split
  · exact List.getElem?_eq_none (by omega)
  · rfl

theorem Separate.apart {v w : RegisterWrite} (h : Separate v w) :
    (patchOf v).Apart (patchOf w) := by
  intro a
  by_cases hv : a < v.1 ∨ v.1 + v.2.length ≤ a
  · exact Or.inl (patchOf_eq_none hv)
  · refine Or.inr (patchOf_eq_none ?_)
    unfold Separate at h
    omega

/-- The values of a write are there already. -/
def Written (registers : Registers) (w : RegisterWrite) : Prop :=
  ∀ i v, w.2[i]? = some v → registers.get (w.1 + i) = v

theorem idle_patchOf_iff {registers : Registers} {w : RegisterWrite} :
    (patchOf w).Idle registers.get ↔ Written registers w := by
  constructor
  · intro h i v hv
    refine h _ v ?_
    rw [patchOf, if_pos (Nat.le_add_right _ _), Nat.add_sub_cancel_left, hv]
  · intro h a v hv
    unfold patchOf at hv
    split at hv
    · rename_i hle
      have hget := h _ v hv
      rwa [Nat.add_sub_cancel' hle] at hget
    · exact nomatch hv

theorem get_write (registers : Registers) (w : RegisterWrite) :
    (registers.write w).get = Patch.apply registers.get (patchOf w) := by
  funext a
  rw [Registers.write, Registers.get, Registers.setFrom_apply, Patch.apply, patchOf]
  split
  · cases w.2[a - w.1]? <;> rfl
  · rfl

theorem get_foldl_write (registers : Registers) (ws : List RegisterWrite) :
    (ws.foldl Registers.write registers).get =
      Patch.applyAll registers.get (ws.map patchOf) := by
  induction ws generalizing registers with
  | nil => rfl
  | cons w ws ih =>
      rw [List.foldl_cons, ih, get_write, List.map_cons, Patch.applyAll, Patch.applyAll,
        List.foldl_cons]

theorem foldl_write_unchanged_iff {registers : Registers} {ws : List RegisterWrite}
    (hseparate : ws.Pairwise Separate) :
    (ws.foldl Registers.write registers).get = registers.get ↔ ∀ w ∈ ws, Written registers w := by
  have hapart : (ws.map patchOf).Pairwise Patch.Apart :=
    List.pairwise_map.mpr (hseparate.imp Separate.apart)
  rw [get_foldl_write, Patch.applyAll_eq_self_iff hapart, List.forall_mem_map]
  exact forall₂_congr fun _ _ => idle_patchOf_iff

/-! ### Failed commands -/

/-- The writes of two requests, as far as they can be made, do not meet. -/
def RequestsSeparate (requests : List (Except PyExc RegisterWrite)) : Prop :=
  requests.Pairwise fun p q => ∀ v w, p = .ok v → q = .ok w → Separate v w

/-- Every request of the command is done, or what has been done before the first that is not,
and with it, if it is only its answer that is missing, wrote what was there. -/
def Harmless (outcome : ℕ → Outcome PyExc) (command : Command) (registers : Registers) : Prop :=
  ∀ requests, command = .ok (.inr requests) →
    (attempt outcome 0 requests).1 = none ∨
      ∀ w ∈ (attempt outcome 0 requests).2, Written registers w

/-- If the command says FAILED, the registers are as before. -/
def UnchangedIfFailed (failure : String) (outcome : ℕ → Outcome PyExc) (command : Command)
    (registers : Registers) : Prop :=
  ∀ result registers', execute failure outcome command registers = (.ok result, registers') →
    result.status = "FAILED" → registers'.get = registers.get

theorem pairwise_effects {outcome : ℕ → Outcome PyExc}
    {requests : List (Except PyExc RegisterWrite)} (h : RequestsSeparate requests) :
    (attempt outcome 0 requests).2.Pairwise Separate := by
  have hsub := List.Pairwise.sublist (attempt_sublist outcome 0 requests) h
  exact (List.pairwise_map.mp hsub).imp fun hvw => hvw _ _ rfl rfl

theorem failed_unchanged_iff {failure : String} {outcome : ℕ → Outcome PyExc}
    {command : Command} {registers : Registers}
    (hseparate : ∀ requests, command = .ok (.inr requests) → RequestsSeparate requests) :
    UnchangedIfFailed failure outcome command registers ↔ Harmless outcome command registers := by
  unfold UnchangedIfFailed Harmless execute
  match command, hseparate with
  | .error raised, _ => exact iff_of_true (by simp) nofun
  | .ok (.inl result), _ =>
      refine iff_of_true (fun result' registers' h _ => ?_) nofun
      injection h with _ h
      rw [h]
  | .ok (.inr requests), hseparate =>
      have hpairwise : (attempt outcome 0 requests).2.Pairwise Separate :=
        pairwise_effects (hseparate requests rfl)
      have hunchanged : _ ↔ ∀ w ∈ (attempt outcome 0 requests).2, Written registers w :=
        foldl_write_unchanged_iff hpairwise
      simp only [Except.ok.injEq, Sum.inr.injEq, forall_eq', writeAll]
      rw [← hunchanged]
      cases (attempt outcome 0 requests).1 with
      | none =>
          refine iff_of_true (fun result registers' h hfailed => ?_) (Or.inl rfl)
          injection h with h _
          injection h with h
          rw [← h] at hfailed
          exact absurd hfailed (by decide)
      | some raised =>
          constructor
          · intro h
            exact Or.inr (h _ _ rfl rfl)
          · rintro (h | h) result registers' heq -
            · exact nomatch h
            · injection heq with _ heq
              rw [← heq]
              exact h

end DiepLab.Sunspec
