import DiepLab.Library.SpanningTree

/-!
Ancestors in a spanning tree.

What a node descends from are the nodes on its one way from the root (`mem_way_iff`),
so of two of them one descends from the other. A node is `Deepest` over a set when all
of the set descends from it and it descends from every other node of that kind; the
common ancestor that is furthest from the root is that node (`deepest_of_longest`).
-/

namespace SpanningTree

variable {α β : Type} [DecidableEq α]

/-- All of `items` descends from `n`. -/
def Covers (found : List (Found α β)) (n : α) (items : List α) : Prop :=
  ∀ d ∈ items, Descends found n d

/-- The deepest node from which all of `items` descends. -/
structure Deepest (found : List (Found α β)) (n : α) (items : List α) : Prop where
  covers : Covers found n items
  deepest : ∀ c, Covers found c items → Descends found c n

namespace Tree

variable {adj : α → List (α × β)} {root : α} {order : List α} {found : List (Found α β)}
  (h : Tree adj root order found)
include h

theorem eq_or_descends_parent {f : Found α β} (hf : f ∈ found) {a : α} :
    Descends found a f.node ↔ a = f.node ∨ Descends found a f.parent := by
  constructor
  · intro hd
    rcases hd.cases_tail with heq | ⟨p, hd, g, hg, rfl, hnode⟩
    · exact Or.inl heq.symm
    · rw [h.found_eq hg hf hnode] at hd
      exact Or.inr hd
  · rintro (rfl | hd)
    · exact .refl
    · exact hd.tail ⟨f, hf, rfl, rfl⟩

theorem descends_root_iff {a : α} : Descends found a root ↔ a = root := by
  constructor
  · intro hd
    rcases hd.cases_tail with heq | ⟨p, -, g, hg, -, hnode⟩
    · exact heq.symm
    · exact absurd hnode (h.node_ne_root hg)
  · rintro rfl
    exact .refl

/-- The nodes on the way to `n` are those that it descends from. -/
theorem mem_way_iff {n : α} {path : List (Found α β)} (hp : PathTo root found n path) {a : α} :
    a ∈ path.map Found.parent ++ [n] ↔ Descends found a n := by
  induction hp with
  | root => rw [h.descends_root_iff, List.map_nil, List.nil_append, List.mem_singleton]
  | @step f path hf _ ih =>
      rw [h.eq_or_descends_parent hf, ← ih, List.map_append, List.map_singleton, List.mem_append,
        List.mem_singleton, or_comm]

theorem descends_antisymm {a b : α} (hab : Descends found a b) (hba : Descends found b a) :
    a = b := by
  rcases hab.cases_tail with heq | ⟨p, hap, f, hf, rfl, rfl⟩
  · exact heq.symm
  · -- the node would come in front of its own parent
    have hle := h.idxOf_le_of_descends (hba.trans hap)
    exact absurd (h.ordered f hf) (not_lt.mpr hle)

/-- Of two nodes above a third one descends from the other. -/
theorem descends_total {a b k : α} (ha : Descends found a k) (hb : Descends found b k) :
    Descends found a b ∨ Descends found b a := by
  have hunique : Relator.RightUnique (Function.swap (Child found)) := by
    rintro c a b ⟨f, hf, rfl, rfl⟩ ⟨g, hg, rfl, hnode⟩
    rw [h.found_eq hg hf hnode]
  have hup := Relation.ReflTransGen.total_of_right_unique hunique
    (Relation.reflTransGen_swap.mpr ha) (Relation.reflTransGen_swap.mpr hb)
  exact hup.symm.imp Relation.reflTransGen_swap.mp Relation.reflTransGen_swap.mp

theorem root_descends {x : α} (hx : x ∈ order) : Descends found root x := by
  obtain ⟨path, hp⟩ := h.exists_path hx
  induction hp with
  | root => exact .refl
  | @step f _ hf _ ih => exact (ih (h.parent_mem hf)).tail ⟨f, hf, rfl, rfl⟩

/-- Who descends from another has the longer way. -/
theorem length_le_of_descends {a b : α} (hd : Descends found a b) {pa pb : List (Found α β)}
    (ha : PathTo root found a pa) (hb : PathTo root found b pb) :
    pa.length ≤ pb.length ∧ (pb.length ≤ pa.length → a = b) := by
  induction hb with
  | root =>
      rw [h.descends_root_iff] at hd
      subst hd
      rw [h.path_eq ha .root]
      exact ⟨le_rfl, fun _ => rfl⟩
  | @step f path hf hpath ih =>
      rcases (h.eq_or_descends_parent hf).mp hd with rfl | hd
      · rw [h.path_eq ha (.step hf hpath)]
        exact ⟨le_rfl, fun _ => rfl⟩
      · have hle := (ih hd).1
        rw [List.length_append, List.length_singleton]
        exact ⟨by omega, fun hlt => by omega⟩

theorem Deepest.unique {n m : α} {items : List α} (hn : Deepest found n items)
    (hm : Deepest found m items) : n = m :=
  h.descends_antisymm (hm.deepest n hn.covers) (hn.deepest m hm.covers)

/-- The common ancestor with the longest way is the deepest one. -/
theorem deepest_of_longest {n : α} {items : List α} (hne : items ≠ [])
    (hitems : ∀ d ∈ items, d ∈ order) (hcovers : Covers found n items)
    (hlongest : ∀ c, Covers found c items → ∀ pc pn, PathTo root found c pc →
      PathTo root found n pn → pc.length ≤ pn.length) : Deepest found n items := by
  obtain ⟨d, hd⟩ := List.exists_mem_of_ne_nil items hne
  have hup {c : α} (hc : Covers found c items) : c ∈ order := by
    obtain ⟨path, hp⟩ := h.exists_path (hitems d hd)
    have hway := (h.mem_way_iff hp).mpr (hc d hd)
    rcases List.mem_append.mp hway with hway | hway
    · obtain ⟨f, hf, rfl⟩ := List.mem_map.mp hway
      exact h.parent_mem (of_mem_path hp hf)
    · rw [List.mem_singleton.mp hway]
      exact hitems d hd
  refine ⟨hcovers, fun c hc => ?_⟩
  rcases h.descends_total (hc d hd) (hcovers d hd) with hcn | hnc
  · exact hcn
  · obtain ⟨pc, hpc⟩ := h.exists_path (hup hc)
    obtain ⟨pn, hpn⟩ := h.exists_path (hup hcovers)
    rw [(h.length_le_of_descends hnc hpn hpc).2 (hlongest c hc pc pn hpc hpn)]
    exact .refl

end Tree

end SpanningTree
