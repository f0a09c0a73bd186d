import Mathlib.Data.List.MinMax

/-!
A running maximum that is stored rounded and compared unrounded.

The scan replaces its candidate when the score of the next item is above the *rounded* score
of the candidate. `Chosen` is its invariant: the rounded score of the candidate is the greatest
one, no score behind the candidate is above it, and if the candidate was not rounded down the
rounded scores before it are smaller. So among the items that share the greatest rounded score
it is the last one above that score or, where there is none, the first one.

Where the items are to be compared by something finer than their score, the scan finds a
greatest one exactly if no near tie stands on the wrong side of all the greatest
(`Chosen.greatest_iff`).
-/

namespace RoundedMax

variable {α β γ : Type} [LinearOrder β]

section Scan

variable (score : α → β) (round : β → β)

/-- One turn of the scan. -/
def turn (best : Option (α × β)) (x : α) : Option (α × β) :=
  match best with
  | none => some (x, round (score x))
  | some (b, stored) => if stored < score x then some (x, round (score x)) else some (b, stored)

/-- The candidate at the end, with its rounded score. -/
def scan (items : List α) : Option (α × β) := items.foldl (turn score round) none

/-- The candidate `b` between the items before and behind it. -/
structure Chosen (left : List α) (b : α) (right : List α) : Prop where
  before : ∀ x ∈ left, round (score x) ≤ round (score b)
  behind : ∀ x ∈ right, score x ≤ round (score b)
  first : score b ≤ round (score b) → ∀ x ∈ left, round (score x) < round (score b)

/-- What the scan holds after the items so far. -/
def Holds (items : List α) (best : Option (α × β)) : Prop :=
  match best with
  | none => items = []
  | some (b, stored) => stored = round (score b) ∧
      ∃ left right, items = left ++ b :: right ∧ Chosen score round left b right

end Scan

variable {score : α → β} {round : β → β} (hmono : Monotone round)
  (hidem : ∀ x, round (round (score x)) = round (score x))

include hmono hidem

/-- Behind the candidate no rounded score is greater. -/
theorem Chosen.behind_rounded {left : List α} {b : α} {right : List α}
    (h : Chosen score round left b right) : ∀ x ∈ right, round (score x) ≤ round (score b) :=
  fun x hx => (hmono (h.behind x hx)).trans (hidem b).le

theorem Chosen.rounded_le {left : List α} {b : α} {right : List α}
    (h : Chosen score round left b right) {x : α} (hx : x ∈ left ++ b :: right) :
    round (score x) ≤ round (score b) := by
  rcases List.mem_append.mp hx with hx | hx
  · exact h.before x hx
  · rcases List.mem_cons.mp hx with rfl | hx
    · exact le_rfl
    · exact h.behind_rounded hmono hidem x hx

/-- One turn keeps what the scan holds. -/
theorem holds_turn {items : List α} {best : Option (α × β)} (h : Holds score round items best)
    (x : α) : Holds score round (items ++ [x]) (turn score round best x) := by
  cases best with
  | none =>
      obtain rfl : items = [] := h
      exact ⟨rfl, [], [], rfl, ⟨nofun, nofun, nofun⟩⟩
  | some candidate =>
      obtain ⟨b, stored⟩ := candidate
      obtain ⟨rfl, left, right, rfl, hchosen⟩ := h
      rw [turn]
      split
      · rename_i hlt
        -- the new candidate has everything so far before it
        have hle : round (score b) ≤ round (score x) := (hidem b).ge.trans (hmono hlt.le)
        refine ⟨rfl, left ++ b :: right, [], rfl, ⟨fun y hy => ?_, nofun, fun hup y hy => ?_⟩⟩
        · exact (hchosen.rounded_le hmono hidem hy).trans hle
        · exact (hchosen.rounded_le hmono hidem hy).trans_lt (hlt.trans_le hup)
      · rename_i hle
        refine ⟨rfl, left, right ++ [x], by rw [List.append_assoc, List.cons_append],
          ⟨hchosen.before, fun y hy => ?_, hchosen.first⟩⟩
        rcases List.mem_append.mp hy with hy | hy
        · exact hchosen.behind y hy
        · rw [List.mem_singleton.mp hy]
          exact not_lt.mp hle

/-- The scan holds what it is to hold. -/
theorem holds_scan (items : List α) : Holds score round items (scan score round items) := by
  have hrest (rest done : List α) (best : Option (α × β)) (h : Holds score round done best) :
      Holds score round (done ++ rest) (rest.foldl (turn score round) best) := by
    induction rest generalizing done best with
    | nil => rwa [List.append_nil]
    | cons x rest ih =>
        rw [List.append_cons]
        exact ih (done ++ [x]) (turn score round best x) (holds_turn hmono hidem h x)
  exact hrest items [] none rfl

variable [LinearOrder γ] {index : α → γ}

/-- No smaller item with the greatest rounded score stands where the scan prefers it to all the
greatest: where these are rounded down, a smaller one above the rounded score has one of them
behind it; where they are not, a smaller one has one of them before it. -/
def NoNearTie (score : α → β) (round : β → β) (index : α → γ) (items : List α) : Prop :=
  ∀ left s right, items = left ++ s :: right → ∀ m ∈ items, (∀ x ∈ items, index x ≤ index m) →
    index s < index m → round (score s) = round (score m) →
      (round (score m) < score s → ∃ x ∈ right, index x = index m) ∧
      (score m ≤ round (score m) → ∃ x ∈ left, index x = index m)

variable (hindex : ∀ x y, index x ≤ index y → score x ≤ score y)
include hindex

omit hmono hidem in
theorem score_eq_of_index_eq {x y : α} (h : index x = index y) : score x = score y :=
  le_antisymm (hindex x y h.le) (hindex y x h.ge)

variable {items left : List α} {b : α} {right : List α} (hsplit : items = left ++ b :: right)
  (h : Chosen score round left b right)
include hsplit h

omit hmono hidem in
/-- A candidate that is a greatest item stands where a near tie would need one. -/
theorem Chosen.noNearTie (hgreatest : ∀ x ∈ items, index x ≤ index b) :
    NoNearTie score round index items := by
  intro l s r hs m hm hmax hlt hround
  have hb : b ∈ items := hsplit ▸ List.mem_append_right left List.mem_cons_self
  have hmb : index b = index m := le_antisymm (hmax b hb) (hgreatest m hm)
  rw [← score_eq_of_index_eq hindex hmb] at hround ⊢
  have hne : s ≠ b := fun hsb => hlt.ne (hsb ▸ hmb)
  rw [hsplit] at hs
  rcases List.append_eq_append_iff.mp hs with ⟨mid, hl, hbs⟩ | ⟨mid, hleft, hsr⟩
  · cases mid with
    | nil => exact absurd (List.cons_eq_cons.mp hbs).1.symm hne
    | cons c mid =>
        obtain ⟨rfl, hright⟩ := List.cons_eq_cons.mp hbs
        refine ⟨fun habove => ?_, fun _ => ⟨b, hl ▸ List.mem_append_right _
          List.mem_cons_self, hmb⟩⟩
        exact absurd (h.behind s (hright ▸ List.mem_append_right mid List.mem_cons_self))
          (not_le.mpr habove)
  · cases mid with
    | nil => exact absurd (List.cons_eq_cons.mp hsr).1 hne
    | cons c mid =>
        obtain ⟨rfl, hright⟩ := List.cons_eq_cons.mp hsr
        refine ⟨fun _ => ⟨b, hright ▸ List.mem_append_right mid List.mem_cons_self, hmb⟩,
          fun hup => ?_⟩
        exact absurd hround
          (h.first hup s (hleft ▸ List.mem_append_right l List.mem_cons_self)).ne

/-- A candidate that is smaller than the greatest items makes a near tie with them. -/
theorem Chosen.greatest (hnone : NoNearTie score round index items) :
    ∀ x ∈ items, index x ≤ index b := by
  have hb : b ∈ items := hsplit ▸ List.mem_append_right left List.mem_cons_self
  obtain ⟨m, hargmax⟩ : ∃ m, items.argmax index = some m :=
    Option.ne_none_iff_exists'.mp fun hempty =>
      List.ne_nil_of_mem hb (List.argmax_eq_none.mp hempty)
  have hm : m ∈ items := List.argmax_mem hargmax
  have hmax : ∀ x ∈ items, index x ≤ index m := fun x hx => List.le_of_mem_argmax hx hargmax
  by_contra hnot
  have hlt : index b < index m := by
    by_contra hle
    exact hnot fun x hx => (hmax x hx).trans (not_lt.mp hle)
  have hround : round (score b) = round (score m) :=
    le_antisymm (hmono (hindex b m hlt.le)) (h.rounded_le hmono hidem (hsplit ▸ hm))
  obtain ⟨habove, hup⟩ := hnone left b right hsplit m hm hmax hlt hround
  rcases lt_or_ge (round (score m)) (score b) with hb' | hb'
  · obtain ⟨x, hx, hxm⟩ := habove hb'
    have hxb := h.behind x hx
    rw [score_eq_of_index_eq hindex hxm, hround] at hxb
    exact not_lt.mpr (hindex b m hlt.le |>.trans hxb) hb'
  · have hfirst := h.first (hb'.trans hround.ge)
    rcases lt_or_ge (round (score m)) (score m) with hm' | hm'
    · rw [hsplit, List.mem_append, List.mem_cons] at hm
      rcases hm with hleft | rfl | hright
      · exact (hfirst m hleft).ne hround.symm
      · exact hlt.ne rfl
      · exact not_lt.mpr (hround ▸ h.behind m hright) hm'
    · obtain ⟨x, hx, hxm⟩ := hup hm'
      have hxb := hfirst x hx
      rw [score_eq_of_index_eq hindex hxm] at hxb
      exact hxb.ne hround.symm

/-- The candidate is a greatest item exactly if there is no near tie. -/
theorem Chosen.greatest_iff :
    (∀ x ∈ items, index x ≤ index b) ↔ NoNearTie score round index items :=
  ⟨h.noNearTie hindex hsplit, h.greatest hmono hidem hindex hsplit⟩

end RoundedMax
