import DiepLab.Topology.Features
import DiepLab.Topology.Hierarchy
import DiepLab.Topology.Loader

/-!
What an import keeps of the features that it is given.

A load, a transformer or a line is to be found once after an import: as a row of
its own, in the base load of one node, or in the list of what is unresolved.
The parser loses none of those that it takes for one (`Shaped`). But an edge goes
by the name of its feature, or by a number where that has none, and the loader
makes one row of all edges of one name (`NamesApart`). `represented_iff` says that
these are the two ways in which a feature is lost.
-/

namespace DiepLab.Topology.Representation

open Features Loader

variable {R C J : Type}

/-! ### What has to be represented -/

/-- A load, a transformer or a line, by its type; whatever is a line by its
geometry. -/
def concerned (f : PyValue) : Bool :=
  hasType "Load" f || hasType "Transformer" f || hasType "Line" f || hasGeometry "LineString" f

/-- What the parser takes for one of them. -/
def taken (f : PyValue) : Bool :=
  (hasType "Load" f || hasType "Transformer" f) && hasGeometry "Point" f ||
    hasGeometry "LineString" f

/-- A load is no edge, and nothing else is in a base load. -/
def Suits (isLoad : Bool) : Outcome → Prop
  | .load .. => isLoad = true
  | .transformer .. => isLoad = false
  | .line .. => isLoad = false
  | .unresolved _ => True

/-- The row has what the edge has, which may have been turned. -/
structure RowOf (types : ColumnTypes R C J) (version : ℕ) (s : NetworkStore R C J) (e : EdgeRecord)
    (row : EdgeRow R J) : Prop where
  found : s.edges.row? row.edgeId = some row
  values : ∃ turned fresh, (turned = e ∨ turned = Hierarchy.swapped e) ∧
    Loader.edgeRow types version turned = .ok fresh ∧ row.edgeId = fresh.edgeId ∧
      row.toEdgeValues = fresh.toEdgeValues

/-- Every edge has a row of its own. -/
def OwnRows (types : ColumnTypes R C J) (version : ℕ) (s : NetworkStore R C J)
    (edges : List EdgeRecord) : Prop :=
  ∃ rows, List.Forall₂ (RowOf types version s) edges rows ∧ (rows.map EdgeRow.edgeId).Nodup

/-- The base load of a node is the sum of these loads. -/
def BaseLoadIs (types : ColumnTypes R C J) (s : NetworkStore R C J) (nodeId : String)
    (loads : List (Double × Double)) : Prop :=
  ∃ row, s.nodes.row? nodeId = some row ∧
    types.real (loads.foldl (fun sum load => sum.add load.1) (.finite 0)) = .ok row.baseLoadKw ∧
    types.real (loads.foldl (fun sum load => sum.add load.2) (.finite 0)) = .ok row.baseLoadKvar

/-- The features are represented as the journal of the parser has it. -/
structure RepresentedBy (types : ColumnTypes R C J) (c : Collected) (parsed : Features.Parsed)
    (version : ℕ) (s : NetworkStore R C J) (entries : List (PyValue × Outcome)) : Prop where
  /-- Every feature is handled, and once. -/
  once : (entries.map Prod.fst).Perm (c.features.filter concerned)
  suits : ∀ entry ∈ entries, Suits (hasType "Load" entry.1) entry.2
  edges : parsed.edges = named (entries.filterMap fun entry => entry.2.branch?)
  rows : OwnRows types version s parsed.edges
  unresolved : parsed.unresolved = entries.filterMap fun entry => entry.2.unresolved?
  targets : ∀ entry ∈ entries, ∀ nodeId kw kvar attrs, entry.2 = .load nodeId kw kvar attrs →
    nodeId ∈ parsed.nodes.map NodeRecord.nodeId
  baseLoads : ∀ n ∈ parsed.nodes,
    BaseLoadIs types s n.nodeId (entries.filterMap fun entry => entry.2.loadOn? n.nodeId)

def Represented (types : ColumnTypes R C J) (c : Collected) (parsed : Features.Parsed)
    (version : ℕ) (s : NetworkStore R C J) : Prop :=
  ∃ entries, journal c = .ok entries ∧ RepresentedBy types c parsed version s entries

/-! ### When they are -/

/-- What is called a load, a transformer or a line has the geometry of one. -/
def Shaped (c : Collected) : Prop :=
  ∀ f ∈ c.features,
    (hasType "Load" f = true → hasGeometry "Point" f = true ∨
      hasGeometry "LineString" f = true ∧ joinsNodes c f = false) ∧
    (hasType "Transformer" f = true →
      hasGeometry "Point" f = true ∨ hasGeometry "LineString" f = true) ∧
    (hasType "Line" f = true → hasGeometry "LineString" f = true)

instance (c : Collected) : Decidable (Shaped c) := inferInstanceAs (Decidable (∀ f ∈ c.features, _))

/-- The names of the transformers and lines whose ends are nodes, in order. -/
def resolvedNames (c : Collected) : List PyValue :=
  (c.transformerFeats.filter (namesPair c)).map nameOf ++
    (c.lineFeats.filter (joinsNodes c)).map nameOf

/-- No name is stored as another is, nor as the number of an edge without one. -/
structure NamesApart (types : ColumnTypes R C J) (names : List PyValue) : Prop where
  given : ∀ (i j : ℕ) a b, names[i]? = some a → names[j]? = some b → i ≠ j → a.truthy = true →
    b.truthy = true → types.name 64 a ≠ types.name 64 b
  numbered : ∀ (i j : ℕ) a b, names[i]? = some a → names[j]? = some b → a.truthy = false →
    b.truthy = true → types.name 64 b ≠ .ok ("edge-" ++ toString i)

/-! ### Handled once -/

/-- Two filters that let nothing through both. -/
theorem filter_or_perm {α : Type} {p q : α → Bool} (l : List α)
    (h : ∀ a ∈ l, p a = true → q a = false) :
    (l.filter p ++ l.filter q).Perm (l.filter fun a => p a || q a) := by
  induction l with
  | nil => exact List.Perm.nil
  | cons a rest ih =>
      rw [List.forall_mem_cons] at h
      have hrest := ih h.2
      cases hp : p a with
      | true =>
          rw [List.filter_cons_of_pos hp, List.filter_cons_of_neg (by simp [h.1 hp]),
            List.filter_cons_of_pos (by simp [hp])]
          exact hrest.cons a
      | false =>
          rw [List.filter_cons_of_neg (by simp [hp])]
          cases hq : q a with
          | true =>
              rw [List.filter_cons_of_pos hq, List.filter_cons_of_pos (by simp [hq])]
              exact List.perm_middle.trans (hrest.cons a)
          | false =>
              rw [List.filter_cons_of_neg (by simp [hq]),
                List.filter_cons_of_neg (by simp [hp, hq])]
              exact hrest

/-- Of two filters, one within the other, the same comes through only if they
agree. -/
theorem filter_perm_iff {α : Type} {p q : α → Bool} {l : List α}
    (h : ∀ a ∈ l, p a = true → q a = true) :
    (l.filter p).Perm (l.filter q) ↔ ∀ a ∈ l, q a = true → p a = true := by
  constructor
  · intro hperm a ha hq
    exact (List.mem_filter.mp (hperm.mem_iff.mpr (List.mem_filter.mpr ⟨ha, hq⟩))).2
  · intro hback
    rw [List.filter_congr fun a ha => Bool.eq_iff_iff.mpr ⟨h a ha, hback a ha⟩]

theorem map_fst_journal {c : Collected} {entries : List (PyValue × Outcome)}
    (h : journal c = .ok entries) :
    entries.map Prod.fst = c.loadFeats ++ c.transformerFeats ++ c.lineFeats := by
  obtain ⟨loads, hloads, h⟩ := bind_eq_ok.mp h
  obtain ⟨transformers, htransformers, h⟩ := bind_eq_ok.mp h
  obtain ⟨lines, hlines, h⟩ := bind_eq_ok.mp h
  injection h with h
  rw [← h, List.map_append, List.map_append, map_fst_outcomes hloads,
    map_fst_outcomes htransformers, map_fst_outcomes hlines]

theorem journal_perm {c : Collected} (hc : c.Sorted) {entries : List (PyValue × Outcome)}
    (h : journal c = .ok entries) :
    (entries.map Prod.fst).Perm (c.features.filter taken) := by
  have hpoints : ((c.features.filter (hasGeometry "Point")).filter (hasType "Load") ++
      (c.features.filter (hasGeometry "Point")).filter (hasType "Transformer")).Perm
      (c.features.filter fun f =>
        (hasType "Load" f || hasType "Transformer" f) && hasGeometry "Point" f) := by
    refine (filter_or_perm _ fun f _ hload => ?_).trans (List.Perm.of_eq List.filter_filter)
    rw [Bool.eq_false_iff]
    exact fun htransformer => absurd (hasType_inj hload htransformer) (by decide)
  rw [map_fst_journal h, hc.loads, hc.transformers, hc.lines]
  refine (hpoints.append_right _).trans (filter_or_perm _ fun f _ hpoint => ?_)
  rw [Bool.and_eq_true] at hpoint
  rw [Bool.eq_false_iff]
  exact fun hline => absurd (hasGeometry_inj hpoint.2 hline) (by decide)

theorem taken_concerned {f : PyValue} (h : taken f = true) : concerned f = true := by
  simp only [taken, concerned, Bool.or_eq_true, Bool.and_eq_true] at h ⊢
  rcases h with ⟨hload | htransformer, -⟩ | hline
  · exact Or.inl (Or.inl (Or.inl hload))
  · exact Or.inl (Or.inl (Or.inr htransformer))
  · exact Or.inr hline

theorem once_iff {c : Collected} (hc : c.Sorted) {entries : List (PyValue × Outcome)}
    (h : journal c = .ok entries) :
    (entries.map Prod.fst).Perm (c.features.filter concerned) ↔
      ∀ f ∈ c.features, concerned f = true → taken f = true := by
  rw [← filter_perm_iff fun f _ => taken_concerned]
  have hperm := journal_perm hc h
  exact ⟨fun hentries => hperm.symm.trans hentries, fun htaken => hperm.trans htaken⟩

/-- The journal has what the three functions return. -/
theorem mem_journal {c : Collected} {entries : List (PyValue × Outcome)}
    (h : journal c = .ok entries) {entry : PyValue × Outcome} (hentry : entry ∈ entries) :
    (entry.1 ∈ c.loadFeats ∧ handleLoad c entry.1 = .ok entry.2) ∨
      (entry.1 ∈ c.transformerFeats ∧ handleTransformer c entry.1 = .ok entry.2) ∨
      (entry.1 ∈ c.lineFeats ∧ handleLine c entry.1 = .ok entry.2) := by
  obtain ⟨loads, hloads, h⟩ := bind_eq_ok.mp h
  obtain ⟨transformers, htransformers, h⟩ := bind_eq_ok.mp h
  obtain ⟨lines, hlines, h⟩ := bind_eq_ok.mp h
  injection h with h
  rw [← h, List.append_assoc] at hentry
  rcases List.mem_append.mp hentry with hentry | hentry
  · exact Or.inl (mem_outcomes hloads hentry)
  · rcases List.mem_append.mp hentry with hentry | hentry
    · exact Or.inr (Or.inl (mem_outcomes htransformers hentry))
    · exact Or.inr (Or.inr (mem_outcomes hlines hentry))

/-- Only a load that is drawn as a line can be taken for what it is not. -/
theorem suits_iff {c : Collected} (hok : c.Ok) (hc : c.Sorted) {entries : List (PyValue × Outcome)}
    (h : journal c = .ok entries) :
    (∀ entry ∈ entries, Suits (hasType "Load" entry.1) entry.2) ↔
      ∀ f ∈ c.features, hasGeometry "LineString" f = true → hasType "Load" f = true →
        joinsNodes c f = false := by
  constructor
  · intro hsuits f hf hline hload
    have hmem : f ∈ entries.map Prod.fst := by
      rw [map_fst_journal h, hc.lines]
      exact List.mem_append_right _ (List.mem_filter.mpr ⟨hf, hline⟩)
    obtain ⟨⟨f, o⟩, hentry, rfl⟩ := List.mem_map.mp hmem
    rcases mem_journal h hentry with ⟨hin, -⟩ | ⟨hin, -⟩ | ⟨-, ho⟩
    · rw [hc.loads, List.mem_filter, List.mem_filter] at hin
      exact absurd (hasGeometry_inj hin.1.2 hline) (by decide)
    · rw [hc.transformers, List.mem_filter, List.mem_filter] at hin
      exact absurd (hasGeometry_inj hin.1.2 hline) (by decide)
    · rcases handleLine_ok ho with ⟨-, edge, rfl, -⟩ | ⟨hnot, -⟩
      · exact absurd hload (Bool.eq_false_iff.mp (hsuits _ hentry))
      · exact hnot
  · rintro hlines ⟨f, o⟩ hentry
    rcases mem_journal h hentry with ⟨hin, ho⟩ | ⟨hin, ho⟩ | ⟨hin, ho⟩
    · rcases handleLoad_ok hok ho with ⟨nodeId, kw, kvar, attrs, rfl, -⟩ | ⟨entry, rfl⟩
      · rw [hc.loads, List.mem_filter] at hin
        exact hin.2
      · trivial
    · rcases handleTransformer_ok ho with ⟨-, edge, kvs, rfl, -⟩ | ⟨-, entry, rfl⟩
      · rw [hc.transformers, List.mem_filter] at hin
        exact Bool.eq_false_iff.mpr fun hload => absurd (hasType_inj hin.2 hload) (by decide)
      · trivial
    · rcases handleLine_ok ho with ⟨hjoins, edge, rfl, -⟩ | ⟨-, entry, rfl⟩
      · rw [hc.lines, List.mem_filter] at hin
        refine Bool.eq_false_iff.mpr fun hload => ?_
        exact Bool.eq_false_iff.mp (hlines f hin.1 hin.2 hload) hjoins
      · trivial

theorem shaped_iff (c : Collected) :
    Shaped c ↔ (∀ f ∈ c.features, concerned f = true → taken f = true) ∧
      ∀ f ∈ c.features, hasGeometry "LineString" f = true → hasType "Load" f = true →
        joinsNodes c f = false := by
  rw [Shaped, ← forall₂_and]
  refine forall₂_congr fun f _ => ?_
  simp only [concerned, taken, Bool.or_eq_true, Bool.and_eq_true]
  constructor
  · rintro ⟨hload, htransformer, hline⟩
    refine ⟨?_, fun hdrawn hisLoad => ?_⟩
    · rintro (((h | h) | h) | h)
      · exact (hload h).imp (fun hpoint => ⟨Or.inl h, hpoint⟩) And.left
      · exact (htransformer h).imp_left fun hpoint => ⟨Or.inr h, hpoint⟩
      · exact Or.inr (hline h)
      · exact Or.inr h
    · rcases hload hisLoad with hpoint | ⟨-, hnot⟩
      · exact absurd (hasGeometry_inj hpoint hdrawn) (by decide)
      · exact hnot
  · rintro ⟨htaken, hnot⟩
    refine ⟨fun h => ?_, fun h => ?_, fun h => ?_⟩
    · rcases htaken (Or.inl (Or.inl (Or.inl h))) with ⟨-, hpoint⟩ | hdrawn
      · exact Or.inl hpoint
      · exact Or.inr ⟨hdrawn, hnot hdrawn h⟩
    · exact (htaken (Or.inl (Or.inl (Or.inr h)))).imp_left And.right
    · refine (htaken (Or.inl (Or.inr h))).resolve_left fun hother => ?_
      rcases hother.1 with hother | hother <;> exact absurd (hasType_inj h hother) (by decide)

/-! ### The names of the edges -/

/-- The edges of a loop have the names of the features that it resolves. -/
theorem branches_outcomes (resolves : PyValue → Bool)
    {handle : PyValue → Except ParseError Outcome} {features : List PyValue}
    {entries : List (PyValue × Outcome)}
    (hhandle : ∀ f ∈ features, ∀ o, handle f = .ok o →
      (resolves f = true ∧ ∃ edge, o.branch? = some edge ∧ edge.edgeId = nameOf f) ∨
        (resolves f = false ∧ o.branch? = none))
    (h : outcomes handle features = .ok entries) :
    (entries.filterMap fun entry => entry.2.branch?).map EdgeRecord.edgeId =
      (features.filter resolves).map nameOf := by
  induction features generalizing entries with
  | nil =>
      injection h with h
      rw [← h]
      rfl
  | cons f rest ih =>
      rw [List.forall_mem_cons] at hhandle
      rw [outcomes, List.mapM_cons] at h
      obtain ⟨entry, hentry, h⟩ := bind_eq_ok.mp h
      obtain ⟨others, hothers, h⟩ := bind_eq_ok.mp h
      injection h with h
      obtain ⟨o, ho, hentry⟩ := bind_eq_ok.mp hentry
      injection hentry with hentry
      subst h hentry
      have hrest := ih hhandle.2 hothers
      rcases hhandle.1 o ho with ⟨hresolves, edge, hedge, hname⟩ | ⟨hresolves, hnone⟩
      · rw [List.filterMap_cons]
        dsimp only
        rw [hedge, List.filter_cons_of_pos hresolves, List.map_cons, List.map_cons, hname]
        exact congrArg _ hrest
      · rw [List.filterMap_cons]
        dsimp only
        rw [hnone, List.filter_cons_of_neg (Bool.not_eq_true _ ▸ hresolves)]
        exact hrest

theorem branches_journal {c : Collected} (hok : c.Ok) {entries : List (PyValue × Outcome)}
    (h : journal c = .ok entries) :
    (entries.filterMap fun entry => entry.2.branch?).map EdgeRecord.edgeId = resolvedNames c := by
  obtain ⟨loads, hloads, h⟩ := bind_eq_ok.mp h
  obtain ⟨transformers, htransformers, h⟩ := bind_eq_ok.mp h
  obtain ⟨lines, hlines, h⟩ := bind_eq_ok.mp h
  injection h with h
  have hnone : (loads.filterMap fun entry => entry.2.branch?).map EdgeRecord.edgeId =
      (c.loadFeats.filter fun _ => false).map nameOf := by
    refine branches_outcomes _ (fun f _ o ho => ?_) hloads
    rcases handleLoad_ok hok ho with ⟨_, _, _, _, rfl, -⟩ | ⟨_, rfl⟩ <;> exact Or.inr ⟨rfl, rfl⟩
  have hpairs : (transformers.filterMap fun entry => entry.2.branch?).map EdgeRecord.edgeId =
      (c.transformerFeats.filter (namesPair c)).map nameOf := by
    refine branches_outcomes _ (fun f _ o ho => ?_) htransformers
    rcases handleTransformer_ok ho with ⟨hpair, edge, kvs, rfl, hname⟩ | ⟨hpair, entry, rfl⟩
    · exact Or.inl ⟨hpair, edge, rfl, hname⟩
    · exact Or.inr ⟨hpair, rfl⟩
  have hjoined : (lines.filterMap fun entry => entry.2.branch?).map EdgeRecord.edgeId =
      (c.lineFeats.filter (joinsNodes c)).map nameOf := by
    refine branches_outcomes _ (fun f _ o ho => ?_) hlines
    rcases handleLine_ok ho with ⟨hjoins, edge, rfl, hname⟩ | ⟨hjoins, entry, rfl⟩
    · exact Or.inl ⟨hjoins, edge, rfl, hname⟩
    · exact Or.inr ⟨hjoins, rfl⟩
  rw [← h, List.filterMap_append, List.filterMap_append, List.map_append, List.map_append, hnone,
    hpairs, hjoined, List.filter_false, List.map_nil, List.nil_append, resolvedNames]

/-- The edges that the parser makes have the names of the journal, numbered. -/
theorem edges_journal {c : Collected} (hok : c.Ok) (nodes : List NodeRecord)
    {entries : List (PyValue × Outcome)} (h : journal c = .ok entries) :
    (putAll { nodes := nodes } entries).edges =
      named (entries.filterMap fun entry => entry.2.branch?) := by
  refine edges_putAll nodes fun entry hentry edge kvs ho => ?_
  rcases mem_journal h hentry with ⟨-, hhandled⟩ | ⟨-, hhandled⟩ | ⟨-, hhandled⟩
  · rcases handleLoad_ok hok hhandled with ⟨_, _, _, _, ho', -⟩ | ⟨_, ho'⟩ <;> rw [ho'] at ho <;>
      exact nomatch ho
  · rcases handleTransformer_ok hhandled with ⟨hpair, edge', kvs', ho', hname⟩ | ⟨-, _, ho'⟩
    · rw [ho'] at ho
      injection ho with hedge
      rw [← hedge, hname]
      exact truthy_of_namesPair hpair
    · rw [ho'] at ho
      exact nomatch ho
  · rcases handleLine_ok hhandled with ⟨-, edge', ho', -⟩ | ⟨-, _, ho'⟩ <;> rw [ho'] at ho <;>
      exact nomatch ho

section Names

variable {types : ColumnTypes R C J}

/-- A text that is stored and ends with no blank is stored as it is. -/
theorem name_number {k : ℕ} {t : String}
    (h : types.name 64 (.str ("edge-" ++ toString k)) = .ok t) : t = "edge-" ++ toString k := by
  refine varchar_eq ?_ h
  rw [String.toList_append, Nat.toString_eq_repr, Nat.toList_repr,
    List.getLast?_append_of_ne_nil _ Nat.toDigits_ne_nil]
  intro hlast
  exact absurd (Numerals.isDigit_toDigits (List.mem_of_getLast? hlast)) (by decide)

theorem number_inj {i j : ℕ} (h : "edge-" ++ toString i = "edge-" ++ toString j) : i = j := by
  have hlist := congrArg String.toList h
  rw [String.toList_append, String.toList_append, List.append_cancel_left_eq, Nat.toString_eq_repr,
    Nat.toString_eq_repr, Nat.toList_repr, Nat.toList_repr] at hlist
  have hvalue := congrArg (fun digits => Nat.ofDigitChars 10 digits 0) hlist
  simpa only [Nat.ofDigitChars_ten_toDigits] using hvalue

/-- Edges are stored under different names iff no two of their names are the same. -/
theorem nodup_stored {names : List PyValue} :
    ((names.mapIdx edgeName).map (types.name 64)).Nodup ↔
      ∀ (i j : ℕ) a b, names[i]? = some a → names[j]? = some b → i ≠ j →
        types.name 64 (edgeName i a) ≠ types.name 64 (edgeName j b) := by
  have hget (i : ℕ) : ((names.mapIdx edgeName).map (types.name 64))[i]? =
      names[i]?.map fun a => types.name 64 (edgeName i a) := by
    rw [List.getElem?_map, List.getElem?_mapIdx, Option.map_map]
    rfl
  rw [List.nodup_iff_getElem?_ne_getElem?]
  simp only [hget, List.length_map, List.length_mapIdx]
  constructor
  · intro h
    have hlt (i j : ℕ) (a b : PyValue) (ha : names[i]? = some a) (hb : names[j]? = some b)
        (hij : i < j) : types.name 64 (edgeName i a) ≠ types.name 64 (edgeName j b) := by
      have hne := h i j hij (List.getElem?_eq_some_iff.mp hb).1
      rw [ha, hb, Option.map_some, Option.map_some] at hne
      exact fun heq => hne (congrArg some heq)
    intro i j a b ha hb hij
    rcases Nat.lt_or_gt_of_ne hij with hij | hij
    · exact hlt i j a b ha hb hij
    · exact (hlt j i b a hb ha hij).symm
  · intro h i j hij hj
    have ha : names[i]? = some _ := List.getElem?_eq_getElem (hij.trans hj)
    have hb : names[j]? = some _ := List.getElem?_eq_getElem hj
    rw [ha, hb, Option.map_some, Option.map_some]
    exact fun heq => h i j _ _ ha hb hij.ne (Option.some.inj heq)

theorem namesApart_iff {names : List PyValue}
    (hstored : ∀ v ∈ names.mapIdx edgeName, ∃ t, types.name 64 v = .ok t) :
    ((names.mapIdx edgeName).map (types.name 64)).Nodup ↔ NamesApart types names := by
  have hgiven (i : ℕ) (a : PyValue) (ha : a.truthy = true) : edgeName i a = a := if_pos ha
  have hnumber (i : ℕ) (a : PyValue) (ha : names[i]? = some a) (hfalse : a.truthy = false) :
      types.name 64 (edgeName i a) = .ok ("edge-" ++ toString i) := by
    have hname : edgeName i a = .str ("edge-" ++ toString i) := if_neg (Bool.not_eq_true _ ▸ hfalse)
    have hmem : edgeName i a ∈ names.mapIdx edgeName := by
      refine List.mem_of_getElem? (i := i) ?_
      rw [List.getElem?_mapIdx, ha]
      rfl
    obtain ⟨t, ht⟩ := hstored _ hmem
    rw [hname] at ht ⊢
    rw [ht, name_number ht]
  rw [nodup_stored]
  constructor
  · intro h
    constructor
    case given =>
      intro i j a b ha hb hij hatrue hbtrue
      have hne := h i j a b ha hb hij
      rwa [hgiven i a hatrue, hgiven j b hbtrue] at hne
    case numbered =>
      intro i j a b ha hb hafalse hbtrue
      have hij : i ≠ j := by
        rintro rfl
        obtain rfl := Option.some.inj (ha.symm.trans hb)
        exact absurd hbtrue (Bool.eq_false_iff.mp hafalse)
      have hne := h i j a b ha hb hij
      rw [hnumber i a ha hafalse, hgiven j b hbtrue] at hne
      exact hne.symm
  · intro h i j a b ha hb hij
    cases hatrue : a.truthy with
    | true =>
        cases hbtrue : b.truthy with
        | true =>
            rw [hgiven i a hatrue, hgiven j b hbtrue]
            exact h.given i j a b ha hb hij hatrue hbtrue
        | false =>
            rw [hgiven i a hatrue, hnumber j b hb hbtrue]
            exact h.numbered j i b a hb ha hbtrue hatrue
    | false =>
        cases hbtrue : b.truthy with
        | true =>
            rw [hnumber i a ha hatrue, hgiven j b hbtrue]
            exact (h.numbered i j a b ha hb hatrue hbtrue).symm
        | false =>
            rw [hnumber i a ha hatrue, hnumber j b hb hbtrue]
            exact fun heq => hij (number_inj (Except.ok.inj heq))

end Names

/-! ### From the parser to the loader -/

/-- What the parser returns, told by its journal. -/
theorem parse_ok {repr : PyValue → Except ParseError String} {fc : Dict PyValue} {c : Collected}
    (hcollect : collect repr fc = .ok c) {parsed : Features.Parsed}
    (h : Features.parseFeatureCollection repr fc = .ok parsed) :
    ∃ entries, journal c = .ok entries ∧
      parsed.edges = named (entries.filterMap fun entry => entry.2.branch?) ∧
      parsed.unresolved = (entries.filterMap fun entry => entry.2.unresolved?) ∧
      parsed.nodes.map view =
        c.nodes.map fun n => entries.foldl (fun v entry => entry.2.onView v) (view n) := by
  obtain ⟨c', hc', h⟩ := bind_eq_ok.mp h
  obtain rfl := Except.ok.inj (hcollect.symm.trans hc')
  obtain ⟨p, hp, h⟩ := bind_eq_ok.mp h
  obtain ⟨nodes, hnodes, h⟩ := bind_eq_ok.mp h
  injection h with h
  subst h
  obtain ⟨entries, hjournal, rfl⟩ := handleFeatures_ok hp
  refine ⟨entries, hjournal, edges_journal (collect_ok hcollect).1 c.nodes hjournal, ?_, ?_⟩
  · exact unresolved_putAll { nodes := c.nodes } entries
  · exact (propagateRounds_view hnodes).trans (map_view_putAll { nodes := c.nodes } entries)

/-- A node of the parser has the loads that its journal puts on it, and no parent. -/
theorem parsed_node {c : Collected} (hok : c.Ok) {nodes : List NodeRecord}
    {entries : List (PyValue × Outcome)} (h : nodes.map view =
      c.nodes.map fun n => entries.foldl (fun v entry => entry.2.onView v) (view n))
    {n : NodeRecord} (hn : n ∈ nodes) :
    view n = {
      nodeId := n.nodeId
      parentId := none
      baseLoadKw := (entries.filterMap fun entry => entry.2.loadOn? n.nodeId).foldl
        (fun sum load => sum.add load.1) (.finite 0)
      baseLoadKvar := (entries.filterMap fun entry => entry.2.loadOn? n.nodeId).foldl
        (fun sum load => sum.add load.2) (.finite 0) } := by
  have hmem : view n ∈ nodes.map view := List.mem_map_of_mem hn
  rw [h] at hmem
  obtain ⟨n₀, hn₀, heq⟩ := List.mem_map.mp hmem
  obtain ⟨hparent, hkw, hkvar⟩ := hok.unloaded n₀ hn₀
  rw [foldl_onView] at heq
  have hid : n₀.nodeId = n.nodeId := congrArg NodeView.nodeId heq
  rw [← heq, view, hparent, hkw, hkvar, hid]

theorem map_nodeId_parsed {c : Collected} {nodes : List NodeRecord}
    {entries : List (PyValue × Outcome)} (h : nodes.map view =
      c.nodes.map fun n => entries.foldl (fun v entry => entry.2.onView v) (view n)) :
    nodes.map NodeRecord.nodeId = c.ids := by
  have hids := congrArg (List.map NodeView.nodeId) h
  rw [List.map_map, List.map_map] at hids
  refine hids.trans (List.map_congr_left fun n _ => ?_)
  rw [Function.comp_apply, foldl_onView]
  rfl

/-- An oriented parse is a model that can be imported. -/
def orientedModel {nodes : List NodeRecord} {edges : List EdgeRecord} {rootId : String}
    {oriented : Hierarchy.Oriented} (hkey : (nodes.map NodeRecord.nodeId).Nodup)
    (hstripped : ∀ id ∈ nodes.map NodeRecord.nodeId, id ≠ "" ∧ id.toList.getLast? ≠ some ' ')
    (hparentless : ∀ n ∈ nodes, n.parentId = none)
    (h : Hierarchy.orientRadial nodes edges rootId = .ok oriented) : ParsedModel where
  nodes := oriented.nodes
  edges := oriented.edges
  key := by rwa [Hierarchy.map_nodeId_oriented h]
  stripped n hn := hstripped _ (Hierarchy.map_nodeId_oriented h ▸ List.mem_map_of_mem hn)
  parents n hn p hp := by
    rw [Hierarchy.map_nodeId_oriented h]
    rcases Hierarchy.parentId_oriented h hn hp with hparent | ⟨m, hm, hmp⟩
    · exact hparent
    · exact nomatch (hparentless m hm).symm.trans hmp

section Rows

variable {types : ColumnTypes R C J} {m : ParsedModel} {p : Publication} {siteName : Option String}
  {s s' : NetworkStore R C J} {r : ImportResult}

/-- What is made of every item, item by item. -/
theorem forall₂_of_mapM {ε α β : Type} {f : α → Except ε β} {items : List α} {made : List β}
    (h : items.mapM f = .ok made) : List.Forall₂ (fun a b => f a = .ok b) items made := by
  induction items generalizing made with
  | nil =>
      injection h with h
      exact h ▸ List.Forall₂.nil
  | cons a rest ih =>
      rw [List.mapM_cons] at h
      obtain ⟨b, hb, h⟩ := bind_eq_ok.mp h
      obtain ⟨rest', hrest, h⟩ := bind_eq_ok.mp h
      injection h with h
      exact h ▸ List.Forall₂.cons hb (ih hrest)

theorem map_eq_map_iff {α β γ : Type} {f : α → γ} {g : β → γ} {l : List α} {l' : List β} :
    l.map f = l'.map g ↔ List.Forall₂ (fun a b => f a = g b) l l' := by
  rw [← List.forall₂_map_left_iff (R := fun c b => c = g b), ← List.forall₂_map_right_iff,
    List.forall₂_eq_eq_eq]

/-- What an upsert leaves of a row that is written once. -/
def upserted (s : NetworkStore R C J) (row : EdgeRow R J) : EdgeRow R J :=
  ((s.edges.row? row.edgeId).map row.overwrite).getD row

theorem edgeId_upserted (s : NetworkStore R C J) (row : EdgeRow R J) :
    (upserted s row).edgeId = row.edgeId := by
  unfold upserted
  cases hold : s.edges.row? row.edgeId with
  | none => rfl
  | some old =>
      have hkey : old.edgeId = row.edgeId := Table.key_of_row? hold
      exact hkey

theorem values_upserted (s : NetworkStore R C J) (row : EdgeRow R J) :
    (upserted s row).toEdgeValues = row.toEdgeValues := by
  unfold upserted
  cases s.edges.row? row.edgeId <;> rfl

/-- The rows that an import makes are the edges' own exactly if their ids differ. -/
theorem ownRows_iff {edges : List EdgeRecord} {turn : EdgeRecord → EdgeRecord}
    (hturn : ∀ e, turn e = e ∨ turn e = Hierarchy.swapped e) (hedges : m.edges = edges.map turn)
    (h : Imports types m p siteName s r s') :
    OwnRows types r.version.version s' edges ↔
      ((edges.map EdgeRecord.edgeId).map (types.name 64)).Nodup := by
  have hstored (rows : List (EdgeRow R J)) :
      List.Forall₂ (fun e row => types.name 64 (EdgeRecord.edgeId e) = .ok row.edgeId) edges rows →
        (((edges.map EdgeRecord.edgeId).map (types.name 64)).Nodup ↔
          (rows.map EdgeRow.edgeId).Nodup) := by
    intro hrows
    have hsame : (edges.map EdgeRecord.edgeId).map (types.name 64) =
        (rows.map EdgeRow.edgeId).map Except.ok := by
      rw [List.map_map, List.map_map]
      exact map_eq_map_iff.mpr hrows
    rw [hsame]
    exact List.nodup_map_iff fun _ _ => Except.ok.inj
  constructor
  · rintro ⟨rows, hrows, hids⟩
    refine (hstored rows (hrows.imp fun e row hrow => ?_)).mpr hids
    obtain ⟨turned, fresh, hturned, hfresh, hid, -⟩ := hrow.values
    rw [hid, ← (edgeId_of_edgeRow hfresh).1]
    rcases hturned with rfl | rfl <;> rfl
  · intro hids
    obtain ⟨made, hmade, hrows⟩ := edges_imported h
    rw [hedges] at hmade
    have hpairs := List.forall₂_map_left_iff.mp (forall₂_of_mapM hmade)
    have hkeys : (made.map EdgeRow.edgeId).Nodup := by
      refine (hstored made (hpairs.imp fun e row hrow => ?_)).mp hids
      rw [← (edgeId_of_edgeRow hrow).1]
      rcases hturn e with heq | heq <;> rw [heq]
      rfl
    refine ⟨made.map (upserted s), ?_, ?_⟩
    · rw [List.forall₂_map_right_iff, List.forall₂_iff_zip]
      refine ⟨hpairs.length_eq, fun {e row} hpair => ?_⟩
      have hfresh := (List.forall₂_iff_zip.mp hpairs).2 hpair
      constructor
      case found =>
        rw [edgeId_upserted, hrows]
        exact Table.row?_upserts_of_mem _ hkeys (List.of_mem_zip hpair).2 s.edges
      case values =>
        exact ⟨turn e, row, hturn e, hfresh, edgeId_upserted s row, values_upserted s row⟩
    · rw [List.map_map]
      exact (List.map_congr_left fun row _ => edgeId_upserted s row) ▸ hkeys

theorem baseLoad_of_nodeRow {version : ℕ} {n : NodeRecord} {row : NodeRow R C J}
    (h : nodeRow types version siteName n = .ok row) :
    types.real n.baseLoadKw = .ok row.baseLoadKw ∧
      types.real n.baseLoadKvar = .ok row.baseLoadKvar := by
  unfold nodeRow at h
  iterate 7 obtain ⟨_, -, h⟩ := bind_eq_ok.mp h
  obtain ⟨kw, hkw, h⟩ := bind_eq_ok.mp h
  obtain ⟨kvar, hkvar, h⟩ := bind_eq_ok.mp h
  obtain ⟨_, -, h⟩ := bind_eq_ok.mp h
  injection h with h
  subst h
  exact ⟨hkw, hkvar⟩

theorem baseLoad_imported (h : Imports types m p siteName s r s') {n : NodeRecord}
    (hn : n ∈ m.nodes) :
    ∃ row, s'.nodes.row? n.nodeId = some row ∧ types.real n.baseLoadKw = .ok row.baseLoadKw ∧
      types.real n.baseLoadKvar = .ok row.baseLoadKvar := by
  obtain ⟨fresh, hfresh, hrow⟩ := row?_node h hn
  have hvalues := values_writtenRow n fresh (s.nodes.row? n.nodeId)
  obtain ⟨hkw, hkvar⟩ := baseLoad_of_nodeRow hfresh
  refine ⟨_, hrow, ?_, ?_⟩
  · rw [hkw, ← congrArg NodeValues.baseLoadKw hvalues]
  · rw [hkvar, ← congrArg NodeValues.baseLoadKvar hvalues]

end Rows

theorem edgeIds_named (edges : List EdgeRecord) :
    (named edges).map EdgeRecord.edgeId = (edges.map EdgeRecord.edgeId).mapIdx edgeName := by
  refine List.ext_getElem? fun k => ?_
  rw [named, List.getElem?_map, List.getElem?_mapIdx, List.getElem?_mapIdx, List.getElem?_map,
    Option.map_map, Option.map_map]
  rfl

/-- An import that succeeds has stored the name of every edge. -/
theorem stored_of_imports {types : ColumnTypes R C J} {m : ParsedModel} {p : Publication}
    {siteName : Option String} {s s' : NetworkStore R C J} {r : ImportResult}
    {edges : List EdgeRecord} {turn : EdgeRecord → EdgeRecord}
    (hturn : ∀ e, turn e = e ∨ turn e = Hierarchy.swapped e) (hedges : m.edges = edges.map turn)
    (h : Imports types m p siteName s r s') :
    ∀ v ∈ edges.map EdgeRecord.edgeId, ∃ t, types.name 64 v = .ok t := by
  intro v hv
  obtain ⟨e, he, rfl⟩ := List.mem_map.mp hv
  obtain ⟨made, hmade, -⟩ := edges_imported h
  obtain ⟨row, hrow⟩ := mapM_isOk.mp ⟨made, hmade⟩ (turn e) (hedges ▸ List.mem_map_of_mem he)
  refine ⟨row.edgeId, ?_⟩
  rw [← (edgeId_of_edgeRow hrow).1]
  rcases hturn e with heq | heq <;> rw [heq]
  rfl

section Import

variable {types : ColumnTypes R C J} {repr : PyValue → Except ParseError String}
  {fc : Dict PyValue} {c : Collected} {parsed : Features.Parsed} {rootId : String}
  {oriented : Hierarchy.Oriented} {p : Publication} {siteName : Option String}
  {s s' : NetworkStore R C J} {r : ImportResult}

/-- What is parsed and oriented is imported as a model. -/
theorem imports_oriented (hcollect : collect repr fc = .ok c)
    (hparse : Features.parseFeatureCollection repr fc = .ok parsed)
    (horient : Hierarchy.orientRadial parsed.nodes parsed.edges rootId = .ok oriented)
    (himport : (Loader.importParsed oriented.nodes oriented.edges p siteName).run
      (loaderExec types) s = (.ok r, s')) :
    ∃ m : ParsedModel, m.nodes = oriented.nodes ∧ m.edges = oriented.edges ∧
      Imports types m p siteName s r s' := by
  obtain ⟨hok, -⟩ := collect_ok hcollect
  obtain ⟨entries, -, -, -, hviews⟩ := parse_ok hcollect hparse
  have hids : parsed.nodes.map NodeRecord.nodeId = c.ids := map_nodeId_parsed hviews
  refine ⟨orientedModel (hids ▸ hok.key) (hids ▸ hok.stripped) (fun n hn => ?_) horient, rfl, rfl,
    himport⟩
  exact congrArg NodeView.parentId (parsed_node hok hviews hn)

theorem ownRows_parsed (hcollect : collect repr fc = .ok c)
    (hparse : Features.parseFeatureCollection repr fc = .ok parsed)
    (horient : Hierarchy.orientRadial parsed.nodes parsed.edges rootId = .ok oriented)
    (himport : (Loader.importParsed oriented.nodes oriented.edges p siteName).run
      (loaderExec types) s = (.ok r, s')) :
    OwnRows types r.version.version s' parsed.edges ↔ NamesApart types (resolvedNames c) := by
  obtain ⟨entries, hjournal, hedges, -, -⟩ := parse_ok hcollect hparse
  obtain ⟨m, -, hmEdges, hm⟩ := imports_oriented hcollect hparse horient himport
  have hturn : m.edges = parsed.edges.map (Hierarchy.orientEdge
      ((Hierarchy.discovered parsed.nodes parsed.edges rootId).map Prod.fst)) := by
    rw [hmEdges, Hierarchy.eq_of_orientRadial horient]
  have hnames : parsed.edges.map EdgeRecord.edgeId = (resolvedNames c).mapIdx edgeName := by
    rw [hedges, edgeIds_named, branches_journal (collect_ok hcollect).1 hjournal]
  rw [ownRows_iff (Hierarchy.orientEdge_eq_or _) hturn hm, hnames]
  exact namesApart_iff (hnames ▸ stored_of_imports (Hierarchy.orientEdge_eq_or _) hturn hm)

/-- Every node has the loads of the journal in its row. -/
theorem baseLoads_parsed (hcollect : collect repr fc = .ok c)
    (hparse : Features.parseFeatureCollection repr fc = .ok parsed)
    (horient : Hierarchy.orientRadial parsed.nodes parsed.edges rootId = .ok oriented)
    (himport : (Loader.importParsed oriented.nodes oriented.edges p siteName).run
      (loaderExec types) s = (.ok r, s'))
    {entries : List (PyValue × Outcome)} (hjournal : journal c = .ok entries) {n : NodeRecord}
    (hn : n ∈ parsed.nodes) :
    BaseLoadIs types s' n.nodeId (entries.filterMap fun entry => entry.2.loadOn? n.nodeId) := by
  obtain ⟨entries', hjournal', -, -, hviews⟩ := parse_ok hcollect hparse
  obtain rfl := Except.ok.inj (hjournal.symm.trans hjournal')
  obtain ⟨m, hmNodes, -, hm⟩ := imports_oriented hcollect hparse horient himport
  have hloads := parsed_node (collect_ok hcollect).1 hviews hn
  have horphaned : Hierarchy.orphaned n ∈ m.nodes.map Hierarchy.orphaned := by
    rw [hmNodes, Hierarchy.eq_of_orientRadial horient]
    dsimp only
    rw [Hierarchy.map_orphaned_writeParents]
    exact List.mem_map_of_mem hn
  obtain ⟨n', hn', heq⟩ := List.mem_map.mp horphaned
  obtain ⟨row, hrow, hkw, hkvar⟩ := baseLoad_imported hm hn'
  -- the orientation touches nothing but the parent
  have hview : view (Hierarchy.orphaned n') = view (Hierarchy.orphaned n) := congrArg view heq
  simp only [view, Hierarchy.orphaned, NodeView.mk.injEq] at hview
  obtain ⟨hid, -, hkw', hkvar'⟩ := hview
  refine ⟨row, hid ▸ hrow, ?_, ?_⟩
  · rw [← hkw, hkw']
    exact congrArg types.real (congrArg NodeView.baseLoadKw hloads).symm
  · rw [← hkvar, hkvar']
    exact congrArg types.real (congrArg NodeView.baseLoadKvar hloads).symm

/-- A load is put on a node that there is. -/
theorem target_mem (hok : c.Ok) {entries : List (PyValue × Outcome)}
    (hjournal : journal c = .ok entries) {entry : PyValue × Outcome} (hentry : entry ∈ entries)
    {nodeId : String} {kw kvar : Double} {attrs : PyValue}
    (ho : entry.2 = .load nodeId kw kvar attrs) : nodeId ∈ c.ids := by
  rcases mem_journal hjournal hentry with ⟨-, hhandled⟩ | ⟨-, hhandled⟩ | ⟨-, hhandled⟩
  · rcases handleLoad_ok hok hhandled with ⟨_, _, _, _, ho', hmem⟩ | ⟨_, ho'⟩ <;> rw [ho] at ho'
    · injection ho' with hid
      exact hid ▸ hmem
    · exact nomatch ho'
  · rcases handleTransformer_ok hhandled with ⟨-, _, _, ho', -⟩ | ⟨-, _, ho'⟩ <;>
      exact nomatch ho.symm.trans ho'
  · rcases handleLine_ok hhandled with ⟨-, _, ho', -⟩ | ⟨-, _, ho'⟩ <;>
      exact nomatch ho.symm.trans ho'

/-- **What an import represents.** Of a feature collection that is parsed, oriented
and imported every load, transformer and line is represented once if and only if
each has the geometry of one and the names of those that become edges are apart. -/
theorem represented_iff (hcollect : collect repr fc = .ok c)
    (hparse : Features.parseFeatureCollection repr fc = .ok parsed)
    (horient : Hierarchy.orientRadial parsed.nodes parsed.edges rootId = .ok oriented)
    (himport : (Loader.importParsed oriented.nodes oriented.edges p siteName).run
      (loaderExec types) s = (.ok r, s')) :
    Represented types c parsed r.version.version s' ↔
      Shaped c ∧ NamesApart types (resolvedNames c) := by
  obtain ⟨hok, hsorted⟩ := collect_ok hcollect
  obtain ⟨entries, hjournal, hedges, hunresolved, hviews⟩ := parse_ok hcollect hparse
  rw [shaped_iff, ← once_iff hsorted hjournal, ← suits_iff hok hsorted hjournal,
    ← ownRows_parsed hcollect hparse horient himport]
  constructor
  · rintro ⟨entries', hjournal', h⟩
    obtain rfl := Except.ok.inj (hjournal.symm.trans hjournal')
    exact ⟨⟨h.once, h.suits⟩, h.rows⟩
  · rintro ⟨⟨honce, hsuits⟩, hown⟩
    refine ⟨entries, hjournal, honce, hsuits, hedges, hown, hunresolved, ?_, fun n hn => ?_⟩
    · intro entry hentry nodeId kw kvar attrs ho
      exact map_nodeId_parsed hviews ▸ target_mem hok hjournal hentry ho
    · exact baseLoads_parsed hcollect hparse horient himport hjournal hn

end Import

/-! ### Two lines of one name -/

/-- The names as they are stored. -/
theorem namesApart_stored {types : ColumnTypes R C J} {names : List PyValue} {texts : List String}
    (h : (names.mapIdx edgeName).map (types.name 64) = texts.map .ok) :
    NamesApart types names ↔ texts.Nodup := by
  rw [← namesApart_iff fun v hv => ?_, h]
  · exact List.nodup_map_iff fun _ _ => Except.ok.inj
  · have hmem := List.mem_map_of_mem (f := types.name 64) hv
    rw [h] at hmem
    obtain ⟨t, -, ht⟩ := List.mem_map.mp hmem
    exact ⟨t, ht.symm⟩

/-- The value of what does not raise. -/
def valueOr {ε α : Type} (default : α) : Except ε α → α
  | .ok a => a
  | .error _ => default

theorem eq_ok_valueOr {ε α : Type} (default : α) {x : Except ε α} (h : x.isOk = true) :
    x = .ok (valueOr default x) := by
  cases x with
  | ok a => rfl
  | error e => exact nomatch h

def position (lon lat : ℤ) : PyValue := .list [.num (.int lon), .num (.int lat)]

def feature (kind : String) (coordinates : PyValue) (properties : Dict PyValue) : PyValue :=
  .dict [("geometry", .dict [("type", .str kind), ("coordinates", coordinates)]),
    ("properties", .dict properties)]

/-- Two buses, a transformer and a load, and two lines called as is said. -/
def feeder (first second : String) : Dict PyValue := [("features", .list [
  feature "Point" (position 0 0) [("type", .str "Node"), ("name", .str "a")],
  feature "Point" (position 1 0) [("type", .str "Node"), ("name", .str "b")],
  feature "Point" (position 0 0) [("type", .str "Transformer"), ("name", .str "tr(r:a-b)")],
  feature "Point" (position 1 0) [("type", .str "Load"), ("max_kw", .num (.int 3))],
  feature "LineString" (.list [position 0 0, position 1 0])
    [("type", .str "Line"), ("name", .str first)],
  feature "LineString" (.list [position 1 0, position 0 0])
    [("type", .str "Line"), ("name", .str second)]])]

def noText : PyValue → Except ParseError String := fun _ => .error .typeError

def collected (fc : Dict PyValue) : Collected :=
  valueOr { features := [], lineFeats := [] } (collect noText fc)

def parsed (fc : Dict PyValue) : Features.Parsed :=
  valueOr ⟨[], [], []⟩ (Features.parseFeatureCollection noText fc)

/-- Fed from the first bus. -/
def oriented (fc : Dict PyValue) : Hierarchy.Oriented :=
  valueOr ⟨[], [], []⟩ (Hierarchy.orientRadial (parsed fc).nodes (parsed fc).edges "a")

/-- Imported into a database without buses. -/
def imported (fc : Dict PyValue) :
    Except Exc ImportResult × NetworkStore Double ℚ (Dict PyValue) :=
  (Loader.importParsed (oriented fc).nodes (oriented fc).edges { label := "feeder" } none).run
    (loaderExec postgres) emptyNetwork

/-- Nothing raises on the way. -/
def Accepted (fc : Dict PyValue) : Prop :=
  (collect noText fc).isOk = true ∧ (Features.parseFeatureCollection noText fc).isOk = true ∧
    (Hierarchy.orientRadial (parsed fc).nodes (parsed fc).edges "a").isOk = true ∧
    (imported fc).1 = .ok ⟨⟨2, "feeder", none, "topology-importer", true⟩, 2, 3⟩

instance (fc : Dict PyValue) : Decidable (Accepted fc) := inferInstanceAs (Decidable (_ ∧ _))

theorem Accepted.steps {fc : Dict PyValue} (h : Accepted fc) :
    collect noText fc = .ok (collected fc) ∧
      Features.parseFeatureCollection noText fc = .ok (parsed fc) ∧
      Hierarchy.orientRadial (parsed fc).nodes (parsed fc).edges "a" = .ok (oriented fc) ∧
      imported fc = (.ok ⟨⟨2, "feeder", none, "topology-importer", true⟩, 2, 3⟩,
        (imported fc).2) := by
  obtain ⟨hcollect, hparse, horient, himport⟩ := h
  exact ⟨eq_ok_valueOr _ hcollect, eq_ok_valueOr _ hparse, eq_ok_valueOr _ horient,
    Prod.ext himport rfl⟩

/-- A line without a name is the third edge. -/
theorem feeder_represented : Accepted (feeder "L1" "") ∧
    Represented postgres (collected (feeder "L1" "")) (parsed (feeder "L1" "")) 2
      (imported (feeder "L1" "")).2 := by
  have haccepted : Accepted (feeder "L1" "") := by decide +kernel
  have hshaped : Shaped (collected (feeder "L1" "")) := by decide +kernel
  have hstored : ((resolvedNames (collected (feeder "L1" ""))).mapIdx edgeName).map
      (postgres.name 64) = ["tr(r:a-b)", "L1", "edge-2"].map .ok := by decide +kernel
  obtain ⟨hcollect, hparse, horient, himport⟩ := haccepted.steps
  refine ⟨haccepted, (represented_iff hcollect hparse horient himport).mpr ⟨hshaped, ?_⟩⟩
  exact (namesApart_stored hstored).mpr (by decide)

/-- The second line of one name writes over the first. -/
theorem feeder_overwritten : Accepted (feeder "L1" "L1") ∧
    ¬ Represented postgres (collected (feeder "L1" "L1")) (parsed (feeder "L1" "L1")) 2
      (imported (feeder "L1" "L1")).2 := by
  have haccepted : Accepted (feeder "L1" "L1") := by decide +kernel
  have hstored : ((resolvedNames (collected (feeder "L1" "L1"))).mapIdx edgeName).map
      (postgres.name 64) = ["tr(r:a-b)", "L1", "L1"].map .ok := by decide +kernel
  obtain ⟨hcollect, hparse, horient, himport⟩ := haccepted.steps
  refine ⟨haccepted, ?_⟩
  rintro ⟨entries, -, h⟩
  have hapart := (ownRows_parsed hcollect hparse horient himport).mp h.rows
  exact absurd ((namesApart_stored hstored).mp hapart) (by decide)

end DiepLab.Topology.Representation
