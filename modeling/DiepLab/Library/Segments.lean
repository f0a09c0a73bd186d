import Mathlib.Data.List.Basic
import Mathlib.Order.Basic

/-!
Streams that arrive in segments.

A segment is what has arrived by the time of a `recv`, and never empty. A reader
takes what it returns off a stream or fails. `Simulates` relates the readers of
two kinds of streams; what a program makes of `recvExact` it makes of
`takeExact`, so that it does not see the segmentation.
-/

abbrev Segment (α : Type) := { items : List α // items ≠ [] }

abbrev Segments (α : Type) := List (Segment α)

abbrev Reader (σ β : Type) := StateT σ Option β

namespace Segments

variable {α β σ τ : Type}

/-- All that is still to be received. -/
def content (s : Segments α) : List α := s.flatMap Subtype.val

/-- What `recv(n)` returns: nothing at the end of the stream, and otherwise as
much of the first segment as there is room for. -/
def recv (n : ℕ) : Segments α → List α × Segments α
  | [] => ([], [])
  | segment :: rest =>
      (segment.val.take n,
        if h : segment.val.drop n = [] then rest else ⟨segment.val.drop n, h⟩ :: rest)

@[simp] theorem content_nil : content ([] : Segments α) = [] := rfl

@[simp] theorem content_cons (segment : Segment α) (rest : Segments α) :
    content (segment :: rest) = segment.val ++ content rest := List.flatMap_cons

/-- Nothing is lost and nothing read twice. -/
theorem recv_append (n : ℕ) (s : Segments α) :
    (recv n s).1 ++ content (recv n s).2 = content s := by
  cases s with
  | nil => rfl
  | cons segment rest =>
      by_cases h : segment.val.drop n = []
      · have hall : segment.val.take n = segment.val := by
          have := List.take_append_drop n segment.val
          rwa [h, List.append_nil] at this
        simp only [recv, h, hall, dite_true, content_cons]
      · simp only [recv, h, dite_false, content_cons]
        rw [← List.append_assoc, List.take_append_drop]

theorem length_recv_le (n : ℕ) (s : Segments α) : (recv n s).1.length ≤ n := by
  cases s with
  | nil => exact n.zero_le
  | cons segment rest => exact List.length_take_le n segment.val

/-- Only at the end of the stream nothing is received. -/
theorem recv_eq_nil {n : ℕ} (hn : 0 < n) {s : Segments α} : (recv n s).1 = [] ↔ s = [] := by
  cases s with
  | nil => exact iff_of_true rfl rfl
  | cons segment rest =>
      refine iff_of_false (fun h => ?_) nofun
      rcases List.take_eq_nil_iff.mp h with h | h
      · omega
      · exact segment.property h

theorem length_recv_lt {n : ℕ} (hn : 0 < n) {s : Segments α} (hs : s ≠ []) :
    (content (recv n s).2).length < (content s).length := by
  have hne : (recv n s).1 ≠ [] := fun h => hs ((recv_eq_nil hn).mp h)
  have hlen := congrArg List.length (recv_append n s)
  have := List.length_pos_of_ne_nil hne
  rw [List.length_append] at hlen
  omega

/-- `recv` until there are `n`, or a failure where the stream ends before. -/
def recvExact (n : ℕ) (s : Segments α) : Option (List α × Segments α) :=
  if _hn : n = 0 then some ([], s)
  else if _hs : s = [] then none
  else do
    let (more, rest) ← recvExact (n - (recv n s).1.length) (recv n s).2
    some ((recv n s).1 ++ more, rest)
termination_by n
decreasing_by
  have := List.length_pos_of_ne_nil (fun h => _hs ((recv_eq_nil (Nat.pos_of_ne_zero _hn)).mp h))
  omega

/-- The first `n`, of a stream that is all there. -/
def takeExact (n : ℕ) : Reader (List α) (List α) := fun l =>
  if n ≤ l.length then some (l.take n, l.drop n) else none

theorem takeExact_append {n : ℕ} {l : List α} (h : l.length = n) (rest : List α) :
    takeExact n (l ++ rest) = some (l, rest) := by
  subst h
  simp [takeExact]

/-- What comes first is taken first. -/
theorem takeExact_append_of_le {n : ℕ} {chunk : List α} (h : chunk.length ≤ n) (l : List α) :
    takeExact n (chunk ++ l) =
      (takeExact (n - chunk.length) l).map (Prod.map (chunk ++ ·) id) := by
  have hle : n ≤ (chunk ++ l).length ↔ n - chunk.length ≤ l.length := by
    rw [List.length_append]
    omega
  unfold takeExact
  by_cases hn : n - chunk.length ≤ l.length
  · rw [if_pos hn, if_pos (hle.mpr hn), List.take_append, List.drop_append,
      List.take_of_length_le h, List.drop_of_length_le h, List.nil_append]
    rfl
  · rw [if_neg hn, if_neg (mt hle.mp hn)]
    rfl

theorem takeExact_eq_none {n : ℕ} {l : List α} (h : l.length < n) : takeExact n l = none :=
  if_neg (Nat.not_le.mpr h)

end Segments

/-- What follows a reader sees what it returns and what it leaves. -/
theorem Reader.bind_eq {σ β γ : Type} {r : Reader σ β} {s rest : σ} {b : β}
    (h : r s = some (b, rest)) (k : β → Reader σ γ) : (r >>= k) s = k b rest := by
  change (r s).bind _ = _
  rw [h]
  rfl

/-! ### Simulation -/

section Simulates

variable {α β γ σ τ : Type} {f : σ → τ}

/-- The readers return the same and leave the same. -/
def Simulates (f : σ → τ) (r : Reader σ β) (p : Reader τ β) : Prop :=
  ∀ s, (r s).map (Prod.map id f) = p (f s)

namespace Simulates

theorem pure (b : β) : Simulates f (Pure.pure b) (Pure.pure b) := fun _ => rfl

theorem failure : Simulates f (failure : Reader σ β) failure := fun _ => rfl

theorem bind {r : Reader σ β} {p : Reader τ β} {k : β → Reader σ γ} {k' : β → Reader τ γ}
    (hr : Simulates f r p) (hk : ∀ b, Simulates f (k b) (k' b)) :
    Simulates f (r >>= k) (p >>= k') := by
  intro s
  change ((r s).bind fun bs => k bs.1 bs.2).map _ = (p (f s)).bind fun bs => k' bs.1 bs.2
  rw [← hr s]
  cases r s with
  | none => rfl
  | some bs => exact hk bs.1 bs.2

theorem ite {c : Prop} [Decidable c] {r r' : Reader σ β} {p p' : Reader τ β}
    (h : Simulates f r p) (h' : Simulates f r' p') :
    Simulates f (if c then r else r') (if c then p else p') := by
  split
  · exact h
  · exact h'

theorem eq_none {r : Reader σ β} {p : Reader τ β} (h : Simulates f r p) {s : σ}
    (hp : p (f s) = none) : r s = none := by
  rw [← h s] at hp
  exact Option.map_eq_none_iff.mp hp

theorem eq_some {r : Reader σ β} {p : Reader τ β} (h : Simulates f r p) {s : σ} {b : β} {rest : τ}
    (hp : p (f s) = some (b, rest)) : ∃ s', r s = some (b, s') ∧ f s' = rest := by
  rw [← h s] at hp
  obtain ⟨⟨b', s'⟩, hr, hb⟩ := Option.map_eq_some_iff.mp hp
  injection hb with hb hrest
  exact ⟨s', by rw [hr]; exact congrArg (fun b => some (b, s')) hb, hrest⟩

end Simulates

end Simulates

namespace Segments

variable {α : Type}

/-- The segmentation does not matter to `recvExact`. -/
theorem recvExact_simulates (n : ℕ) :
    Simulates content (recvExact n : Reader (Segments α) (List α)) (takeExact n) := by
  intro s
  induction n using Nat.strongRecOn generalizing s with
  | ind n ih =>
      by_cases hn : n = 0
      · subst hn
        rw [recvExact, dif_pos rfl]
        simp [takeExact]
      · by_cases hs : s = []
        · subst hs
          rw [recvExact, dif_neg hn, dif_pos rfl]
          exact (takeExact_eq_none (Nat.pos_of_ne_zero hn)).symm
        · have hpos := List.length_pos_of_ne_nil
            (fun h => hs ((recv_eq_nil (Nat.pos_of_ne_zero hn)).mp h))
          have hrest := ih (n - (recv n s).1.length) (by omega) (recv n s).2
          rw [recvExact, dif_neg hn, dif_neg hs, ← recv_append n s,
            takeExact_append_of_le (length_recv_le n s), ← hrest]
          cases recvExact (n - (recv n s).1.length) (recv n s).2 <;> rfl

/-- What a stream begins with is received, and the rest is left. -/
theorem recvExact_of_content {s : Segments α} {l rest : List α} (h : content s = l ++ rest) :
    ∃ s', recvExact l.length s = some (l, s') ∧ content s' = rest :=
  (recvExact_simulates l.length).eq_some (by rw [h]; exact takeExact_append rfl rest)

theorem content_append (s t : Segments α) : content (s ++ t) = content s ++ content t :=
  List.flatMap_append

/-! ### Cuts -/

/-- A stream in segments of the given sizes, each one more than the number, with
the rest in one more segment. -/
def cut : List ℕ → List α → Segments α
  | [], l => if h : l = [] then [] else [⟨l, h⟩]
  | n :: sizes, l =>
      if h : l = [] then []
      else ⟨l.take (n + 1), by simp [h]⟩ :: cut sizes (l.drop (n + 1))

@[simp] theorem cut_nil (sizes : List ℕ) : cut sizes ([] : List α) = [] := by
  cases sizes <;> exact dif_pos rfl

@[simp] theorem content_cut (sizes : List ℕ) (l : List α) : content (cut sizes l) = l := by
  induction sizes generalizing l with
  | nil =>
      by_cases h : l = []
      · rw [h, cut_nil, content_nil]
      · rw [cut, dif_neg h, content_cons, content_nil, List.append_nil]
  | cons n sizes ih =>
      by_cases h : l = []
      · rw [h, cut_nil, content_nil]
      · rw [cut, dif_neg h, content_cons, ih, List.take_append_drop]

/-- How much a `recv(k)` takes of a stream that is long enough, and the sizes that
are left. -/
def advance (k : ℕ) : List ℕ → ℕ × List ℕ
  | [] => (k, [])
  | n :: sizes => if n + 1 ≤ k then (n + 1, sizes) else (k, (n - k) :: sizes)

theorem advance_pos {k : ℕ} (hk : 0 < k) (sizes : List ℕ) : 0 < (advance k sizes).1 := by
  cases sizes with
  | nil => exact hk
  | cons n sizes =>
      rw [advance]
      split
      · exact n.succ_pos
      · exact hk

theorem recv_cut (k : ℕ) (sizes : List ℕ) (l : List α) :
    recv k (cut sizes l) =
      (l.take (advance k sizes).1, cut (advance k sizes).2 (l.drop (advance k sizes).1)) := by
  by_cases h : l = []
  · simp [h, recv]
  · cases sizes with
    | nil =>
        rw [cut, dif_neg h, recv, advance, cut]
    | cons n sizes =>
        rw [cut, dif_neg h, recv, advance]
        by_cases hn : n + 1 ≤ k
        · have hall : (l.take (n + 1)).length ≤ k := Nat.le_trans (List.length_take_le _ _) hn
          rw [if_pos hn, dif_pos (List.drop_of_length_le hall), List.take_of_length_le hall]
        · rw [if_neg hn]
          have htake : (l.take (n + 1)).take k = l.take k := by
            rw [List.take_take, Nat.min_eq_left (by omega)]
          have hdrop : (l.take (n + 1)).drop k = (l.drop k).take (n - k + 1) := by
            rw [List.drop_take, show n + 1 - k = n - k + 1 by omega]
          have hrest : (l.drop k).drop (n - k + 1) = l.drop (n + 1) := by
            rw [List.drop_drop, show k + (n - k + 1) = n + 1 by omega]
          dsimp only
          rw [htake, cut, hrest]
          congr 1
          by_cases hnil : l.drop k = []
          · rw [dif_pos hnil, dif_pos (by rw [hdrop, hnil, List.take_nil])]
            have hshort : l.drop (n + 1) = [] := by rw [← hrest, hnil, List.drop_nil]
            rw [hshort, cut_nil]
          · rw [dif_neg hnil, dif_neg (by rw [hdrop]; simp [hnil])]
            congr 1
            exact Subtype.ext hdrop

/-- Read in blocks of at most `k`, the stream has a block that ends at this place. -/
inductive EndsAt (k : ℕ) : List ℕ → ℕ → Prop where
  | start (sizes : List ℕ) : EndsAt k sizes 0
  | block (sizes : List ℕ) (place : ℕ) :
      EndsAt k (advance k sizes).2 place → EndsAt k sizes ((advance k sizes).1 + place)

/-! ### What a reader takes -/

/-- The reader takes at least so many items. -/
def Takes {β : Type} (n : ℕ) (p : Reader (List α) β) : Prop :=
  ∀ l b rest, p l = some (b, rest) → rest.length + n ≤ l.length

section Takes

variable {β γ : Type}

theorem takes_takeExact (n : ℕ) : Takes n (takeExact n : Reader (List α) (List α)) := by
  intro l b rest h
  unfold takeExact at h
  split at h
  · injection h with h
    rw [← (Prod.mk.inj h).2, List.length_drop]
    omega
  · exact nomatch h

theorem takes_pure (b : β) : Takes 0 (Pure.pure b : Reader (List α) β) := by
  intro l b' rest h
  injection h with h
  rw [(Prod.mk.inj h).2]
  exact Nat.le_refl _

theorem takes_failure (n : ℕ) : Takes n (failure : Reader (List α) β) := fun _ _ _ h => nomatch h

theorem Takes.mono {m n : ℕ} {p : Reader (List α) β} (h : Takes n p) (hle : m ≤ n) : Takes m p :=
  fun l b rest hread => by
    have := h l b rest hread
    omega

theorem Takes.bind {m n : ℕ} {p : Reader (List α) β} {k : β → Reader (List α) γ} (hp : Takes m p)
    (hk : ∀ b, Takes n (k b)) : Takes (m + n) (p >>= k) := by
  intro l c rest h
  obtain ⟨⟨b, mid⟩, hmid, hrest⟩ := Option.bind_eq_some_iff.mp h
  have := hp l b mid hmid
  have := hk b mid c rest hrest
  omega

theorem Takes.ite {n : ℕ} {c : Prop} [Decidable c] {p p' : Reader (List α) β} (hp : Takes n p)
    (hp' : Takes n p') : Takes n (if c then p else p') := by
  split
  · exact hp
  · exact hp'

end Takes

end Segments
