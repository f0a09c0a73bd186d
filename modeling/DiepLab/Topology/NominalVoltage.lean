import DiepLab.Library.Loops
import DiepLab.Library.Spread
import DiepLab.Topology.Features

/-!
The nominal voltages that an import carries on.

`_propagate_nominal_kv` goes over the edges as long as a round changes
something. A turn over an edge reads and writes no more than the voltages at its
two ends (`carryKv_cases`), so it spreads labels over the edges that are no
transformers. A round that changes something names the voltage of one node more,
and there are no more rounds than nodes (`propagateRounds_fuel`).
-/

namespace DiepLab.Topology.Features

/-- The nominal voltage of a node, where it is known. -/
def knownKv (nodes : List NodeRecord) (id : String) : Option Double :=
  (byId nodes id).bind NodeRecord.nominalKv

/-- The edges that carry a voltage on. -/
def carrying (edges : List EdgeRecord) : Set EdgeRecord :=
  { e | e ∈ edges ∧ e.edgeType ≠ .transformer }

def unknown (nodes : List NodeRecord) : ℕ := nodes.countP fun n => n.nominalKv.isNone

/-- Both ends of the edge are nodes. -/
def Joins (nodes : List NodeRecord) (e : EdgeRecord) : Prop :=
  e.fromNode ∈ nodes.map NodeRecord.nodeId ∧ e.toNode ∈ nodes.map NodeRecord.nodeId

/-- The voltage is known at both ends or at neither. -/
def Even (nodes : List NodeRecord) (e : EdgeRecord) : Prop :=
  (knownKv nodes e.fromNode).isSome ↔ (knownKv nodes e.toNode).isSome

/-- The record without its voltage. -/
def withoutKv (n : NodeRecord) : NodeRecord := { n with nominalKv := none }

/-! ### Reading and writing a voltage -/

theorem nominalKv_eq (nodes : List NodeRecord) (id : String) :
    nominalKv nodes id =
      if id ∈ nodes.map NodeRecord.nodeId then .ok (knownKv nodes id) else .error .keyError := by
  rw [nominalKv, knownKv]
  cases hid : byId nodes id with
  | none => exact (if_neg (byId_eq_none.mp hid)).symm
  | some n =>
      have hmem : id ∈ nodes.map NodeRecord.nodeId := by
        by_contra hnot
        exact nomatch hid.symm.trans (byId_eq_none.mpr hnot)
      exact (if_pos hmem).symm

theorem of_nominalKv {nodes : List NodeRecord} {id : String} {kv : Option Double}
    (h : nominalKv nodes id = .ok kv) :
    id ∈ nodes.map NodeRecord.nodeId ∧ kv = knownKv nodes id := by
  rw [nominalKv_eq] at h
  split at h
  · injection h with h
    exact ⟨‹_›, h.symm⟩
  · exact nomatch h

theorem knownKv_setKv {nodes : List NodeRecord} {id : String}
    (hid : id ∈ nodes.map NodeRecord.nodeId) (kv : Double) :
    knownKv (setKv id kv nodes) = Function.update (knownKv nodes) id (some kv) := by
  funext x
  have hbyId : byId (setKv id kv nodes) x = (byId nodes x).map fun n =>
      if n.nodeId = id then { n with nominalKv := some kv } else n :=
    byId_map (fun n => by split <;> rfl) nodes x
  rw [knownKv, hbyId]
  by_cases hx : x = id
  · subst hx
    rw [Function.update_self]
    cases hn : byId nodes x with
    | none => exact absurd hid (byId_eq_none.mp hn)
    | some n => simp [nodeId_of_byId hn]
  · rw [Function.update_of_ne hx, knownKv]
    cases hn : byId nodes x with
    | none => rfl
    | some n => simp [nodeId_of_byId hn, hx]

theorem map_withoutKv_setKv (id : String) (kv : Double) (nodes : List NodeRecord) :
    (setKv id kv nodes).map withoutKv = nodes.map withoutKv := by
  rw [setKv, updateNode, List.map_map]
  refine List.map_congr_left fun n _ => ?_
  rw [Function.comp_apply]
  split <;> rfl

theorem unknown_setKv_le (id : String) (kv : Double) (nodes : List NodeRecord) :
    unknown (setKv id kv nodes) ≤ unknown nodes := by
  rw [unknown, setKv, updateNode, List.countP_map]
  refine List.countP_mono_left fun n _ h => ?_
  rw [Function.comp_apply] at h
  split at h
  · cases h
  · exact h

theorem unknown_setKv_lt {id : String} (kv : Double) {nodes : List NodeRecord}
    (hid : id ∈ nodes.map NodeRecord.nodeId) (hnone : knownKv nodes id = none) :
    unknown (setKv id kv nodes) < unknown nodes := by
  obtain ⟨n, hn⟩ := exists_byId hid
  rw [knownKv, hn, Option.bind_some] at hnone
  obtain ⟨left, right, rfl⟩ := List.append_of_mem (mem_of_byId hn)
  have hset : setKv id kv (left ++ n :: right) =
      setKv id kv left ++ { n with nominalKv := some kv } :: setKv id kv right := by
    rw [setKv, updateNode, List.map_append, List.map_cons, if_pos (nodeId_of_byId hn)]
    rfl
  have hleft := unknown_setKv_le id kv left
  have hright := unknown_setKv_le id kv right
  unfold unknown at hleft hright ⊢
  rw [hset, List.countP_append, List.countP_append, List.countP_cons_of_neg (by simp),
    List.countP_cons_of_pos (by simp [hnone])]
  omega

/-! ### A turn -/

/-- What a turn can do. -/
theorem carryKv_cases {nodes nodes' : List NodeRecord} {changed changed' : Bool} {e : EdgeRecord}
    (h : carryKv (nodes, changed) e = .ok (nodes', changed')) :
    (nodes' = nodes ∧ changed' = changed ∧ (e.edgeType ≠ .transformer → Even nodes e)) ∨
      (changed' = true ∧ e.edgeType ≠ .transformer ∧ ∃ known id kv,
        (known = e.fromNode ∧ id = e.toNode ∨ known = e.toNode ∧ id = e.fromNode) ∧
          knownKv nodes known = some kv ∧ id ∈ nodes.map NodeRecord.nodeId ∧
            knownKv nodes id = none ∧ nodes' = setKv id kv nodes) := by
  rw [carryKv] at h
  split at h
  · rename_i htransformer
    injection h with h
    injection h with hnodes hchanged
    exact Or.inl ⟨hnodes.symm, hchanged.symm, fun hne => absurd htransformer hne⟩
  · rename_i hcarries
    dsimp only at h
    obtain ⟨a, ha, h⟩ := bind_eq_ok.mp h
    obtain ⟨b, hb, h⟩ := bind_eq_ok.mp h
    obtain ⟨hfrom, rfl⟩ := of_nominalKv ha
    obtain ⟨hto, rfl⟩ := of_nominalKv hb
    cases ha : knownKv nodes e.fromNode with
    | none =>
        cases hb : knownKv nodes e.toNode with
        | none =>
            rw [ha, hb] at h
            injection h with h
            injection h with hnodes hchanged
            refine Or.inl ⟨hnodes.symm, hchanged.symm, fun _ => ?_⟩
            rw [Even, ha, hb]
        | some kv =>
            rw [ha, hb] at h
            injection h with h
            injection h with hnodes hchanged
            exact Or.inr ⟨hchanged.symm, hcarries, e.toNode, e.fromNode, kv, Or.inr ⟨rfl, rfl⟩, hb,
              hfrom, ha, hnodes.symm⟩
    | some kv =>
        cases hb : knownKv nodes e.toNode with
        | none =>
            rw [ha, hb] at h
            injection h with h
            injection h with hnodes hchanged
            exact Or.inr ⟨hchanged.symm, hcarries, e.fromNode, e.toNode, kv, Or.inl ⟨rfl, rfl⟩, ha,
              hto, hb, hnodes.symm⟩
        | some kv' =>
            rw [ha, hb] at h
            injection h with h
            injection h with hnodes hchanged
            refine Or.inl ⟨hnodes.symm, hchanged.symm, fun _ => ?_⟩
            rw [Even, ha, hb]
            exact iff_of_true rfl rfl

theorem carryKv_isOk (state : List NodeRecord × Bool) (e : EdgeRecord) :
    (∃ state', carryKv state e = .ok state') ↔ e.edgeType ≠ .transformer → Joins state.1 e := by
  rw [carryKv]
  by_cases htransformer : e.edgeType = .transformer
  · rw [if_pos htransformer]
    exact iff_of_true ⟨state, rfl⟩ fun hne => absurd htransformer hne
  · rw [if_neg htransformer]
    constructor
    · rintro ⟨state', h⟩ -
      obtain ⟨a, ha, h⟩ := bind_eq_ok.mp h
      obtain ⟨b, hb, -⟩ := bind_eq_ok.mp h
      exact ⟨(of_nominalKv ha).1, (of_nominalKv hb).1⟩
    · intro h
      obtain ⟨hfrom, hto⟩ := h htransformer
      rw [nominalKv_eq, nominalKv_eq, if_pos hfrom, if_pos hto, ok_bind, ok_bind]
      split <;> exact ⟨_, rfl⟩

theorem error_of_carryKv {state : List NodeRecord × Bool} {e : EdgeRecord} {exc : ParseError}
    (h : carryKv state e = .error exc) : exc = .keyError := by
  have hread (id : String) {exc : ParseError} (h : nominalKv state.1 id = .error exc) :
      exc = .keyError := by
    rw [nominalKv_eq] at h
    split at h
    · exact nomatch h
    · injection h with h
      exact h.symm
  rw [carryKv] at h
  split at h
  · exact nomatch h
  · cases ha : nominalKv state.1 e.fromNode with
    | error _ =>
        rw [ha] at h
        injection h with h
        exact h ▸ hread _ ha
    | ok a =>
        cases hb : nominalKv state.1 e.toNode with
        | error _ =>
            rw [ha, hb] at h
            injection h with h
            exact h ▸ hread _ hb
        | ok b =>
            rw [ha, hb, ok_bind, ok_bind] at h
            split at h <;> exact nomatch h

/-! ### The turns of a run -/

/-- What the turns over some of the edges have made of the nodes. -/
structure Carried (edges : List EdgeRecord) (nodes nodes' : List NodeRecord) : Prop where
  others : nodes'.map withoutKv = nodes.map withoutKv
  spread : wires.Spread (carrying edges) (knownKv nodes) (knownKv nodes')

namespace Carried

variable {edges : List EdgeRecord} {nodes nodes' nodes'' : List NodeRecord}

theorem refl (edges : List EdgeRecord) (nodes : List NodeRecord) : Carried edges nodes nodes :=
  ⟨rfl, .refl _ _ _⟩

theorem trans (h : Carried edges nodes nodes') (h' : Carried edges nodes' nodes'') :
    Carried edges nodes nodes'' :=
  ⟨h'.others.trans h.others, h.spread.trans h'.spread⟩

theorem joins_iff (h : Carried edges nodes nodes') (e : EdgeRecord) :
    Joins nodes' e ↔ Joins nodes e := by
  have hids (nodes : List NodeRecord) :
      nodes.map NodeRecord.nodeId = (nodes.map withoutKv).map NodeRecord.nodeId := by
    rw [List.map_map]
    rfl
  rw [Joins, Joins, hids nodes', h.others, ← hids nodes]

end Carried

variable {edges turns : List EdgeRecord} {nodes nodes' : List NodeRecord} {changed changed' : Bool}

theorem carryKv_carried {e : EdgeRecord} (he : e ∈ edges)
    (h : carryKv (nodes, changed) e = .ok (nodes', changed')) : Carried edges nodes nodes' := by
  rcases carryKv_cases h with ⟨rfl, -, -⟩ |
    ⟨-, hcarries, known, id, kv, hends, hknown, hid, hnone, rfl⟩
  · exact .refl edges _
  · refine ⟨map_withoutKv_setKv id kv nodes, ?_⟩
    have hconn : wires.Conn (carrying edges) e.fromNode e.toNode :=
      Multigraph.conn_of_mem ⟨he, hcarries⟩
    rw [knownKv_setKv hid]
    refine .carry ?_ hknown hnone
    rcases hends with ⟨rfl, rfl⟩ | ⟨rfl, rfl⟩
    · exact hconn
    · exact hconn.symm

theorem turns_carried (hturns : ∀ e ∈ turns, e ∈ edges)
    (h : turns.foldlM carryKv (nodes, changed) = .ok (nodes', changed')) :
    Carried edges nodes nodes' := by
  induction turns generalizing nodes changed with
  | nil =>
      injection h with h
      injection h with h
      exact h ▸ .refl edges nodes
  | cons e rest ih =>
      rw [List.foldlM_cons] at h
      obtain ⟨⟨next, changed⟩, hturn, h⟩ := bind_eq_ok.mp h
      obtain ⟨he, hrest⟩ := List.forall_mem_cons.mp hturns
      exact (carryKv_carried he hturn).trans (ih hrest h)

/-- Either nothing is left to carry on, or a voltage more is known. -/
theorem turns_cases (h : turns.foldlM carryKv (nodes, changed) = .ok (nodes', changed')) :
    (nodes' = nodes ∧ changed' = changed ∧
      ∀ e ∈ turns, e.edgeType ≠ .transformer → Even nodes e) ∨
      (changed' = true ∧ unknown nodes' < unknown nodes) := by
  induction turns generalizing nodes changed with
  | nil =>
      injection h with h
      injection h with hnodes hchanged
      exact Or.inl ⟨hnodes.symm, hchanged.symm, List.forall_mem_nil _⟩
  | cons e rest ih =>
      rw [List.foldlM_cons] at h
      obtain ⟨⟨next, changedNext⟩, hturn, hrun⟩ := bind_eq_ok.mp h
      rcases carryKv_cases hturn with ⟨rfl, rfl, heven⟩ | ⟨rfl, -, _, id, kv, -, -, hid, hnone, rfl⟩
      · rcases ih hrun with ⟨hnodes, hchanged, hrest⟩ | hmore
        · exact Or.inl ⟨hnodes, hchanged, List.forall_mem_cons.mpr ⟨heven, hrest⟩⟩
        · exact Or.inr hmore
      · have hlt := unknown_setKv_lt kv hid hnone
        rcases ih hrun with ⟨rfl, hchanged, -⟩ | ⟨hchanged, hmore⟩
        · exact Or.inr ⟨hchanged, hlt⟩
        · exact Or.inr ⟨hchanged, hmore.trans hlt⟩

theorem turns_isOk : (∃ state', turns.foldlM carryKv (nodes, changed) = .ok state') ↔
    ∀ e ∈ turns, e.edgeType ≠ .transformer → Joins nodes e := by
  induction turns generalizing nodes changed with
  | nil => exact iff_of_true ⟨_, rfl⟩ (List.forall_mem_nil _)
  | cons e rest ih =>
      rw [List.foldlM_cons, List.forall_mem_cons, ← carryKv_isOk (nodes, changed) e]
      refine exists_bind fun next hturn => ?_
      obtain ⟨next, changedNext⟩ := next
      have hcarried : Carried [e] nodes next := carryKv_carried List.mem_cons_self hturn
      rw [ih]
      exact forall₃_congr fun e' _ _ => hcarried.joins_iff e'

/-! ### The rounds -/

/-- More rounds than there are voltages to name make no difference. -/
theorem propagateRounds_fuel {fuel fuel' : ℕ} (h : unknown nodes < fuel)
    (h' : unknown nodes < fuel') :
    propagateRounds edges fuel nodes = propagateRounds edges fuel' nodes := by
  induction fuel generalizing fuel' nodes with
  | zero => omega
  | succ fuel ih =>
      obtain ⟨fuel', rfl⟩ : ∃ k, fuel' = k + 1 := ⟨fuel' - 1, by omega⟩
      rw [propagateRounds, propagateRounds]
      cases hround : edges.foldlM carryKv (nodes, false) with
      | error exc => rfl
      | ok state =>
          obtain ⟨next, changed⟩ := state
          rw [ok_bind, ok_bind]
          cases changed with
          | false => rfl
          | true =>
              rcases turns_cases hround with ⟨-, hchanged, -⟩ | ⟨-, hlt⟩
              · exact nomatch hchanged
              · exact ih (by omega) (by omega)

theorem propagateRounds_carried {fuel : ℕ}
    (h : propagateRounds edges fuel nodes = .ok nodes') : Carried edges nodes nodes' := by
  induction fuel generalizing nodes with
  | zero =>
      injection h with h
      exact h ▸ .refl edges nodes
  | succ fuel ih =>
      obtain ⟨⟨next, changed⟩, hround, h⟩ := bind_eq_ok.mp h
      have hnext := turns_carried (fun _ he => he) hround
      cases changed with
      | true => exact hnext.trans (ih h)
      | false =>
          injection h with h
          exact h ▸ hnext

/-- The last round has changed nothing. -/
theorem propagateRounds_last {fuel : ℕ} (hfuel : unknown nodes < fuel)
    (h : propagateRounds edges fuel nodes = .ok nodes') :
    edges.foldlM carryKv (nodes', false) = .ok (nodes', false) := by
  induction fuel generalizing nodes with
  | zero => omega
  | succ fuel ih =>
      obtain ⟨⟨next, changed⟩, hround, hrun⟩ := bind_eq_ok.mp h
      rcases turns_cases hround with ⟨rfl, rfl, -⟩ | ⟨rfl, hlt⟩
      · injection hrun with hrun
        exact hrun ▸ hround
      · exact ih (by omega) hrun

theorem joins_of_propagateRounds {fuel : ℕ}
    (h : propagateRounds edges (fuel + 1) nodes = .ok nodes') :
    ∀ e ∈ edges, e.edgeType ≠ .transformer → Joins nodes e := by
  obtain ⟨state, hround, -⟩ := bind_eq_ok.mp h
  exact turns_isOk.mp ⟨state, hround⟩

theorem exists_propagateRounds (hjoins : ∀ e ∈ edges, e.edgeType ≠ .transformer → Joins nodes e)
    (fuel : ℕ) : ∃ nodes', propagateRounds edges fuel nodes = .ok nodes' := by
  induction fuel generalizing nodes with
  | zero => exact ⟨nodes, rfl⟩
  | succ fuel ih =>
      obtain ⟨⟨next, changed⟩, hround⟩ : ∃ state, edges.foldlM carryKv (nodes, false) = .ok state :=
        turns_isOk.mpr hjoins
      have hnext := turns_carried (fun _ he => he) hround
      rw [propagateRounds, hround, ok_bind]
      cases changed with
      | true => exact ih fun e he hcarries => (hnext.joins_iff e).mpr (hjoins e he hcarries)
      | false => exact ⟨next, rfl⟩

theorem error_of_propagateRounds {fuel : ℕ} {exc : ParseError}
    (h : propagateRounds edges fuel nodes = .error exc) : exc = .keyError := by
  induction fuel generalizing nodes with
  | zero => exact nomatch h
  | succ fuel ih =>
      rw [propagateRounds] at h
      cases hround : edges.foldlM carryKv (nodes, false) with
      | error raised =>
          rw [hround] at h
          injection h with h
          obtain ⟨state, e, -, hturn⟩ := Loops.exists_of_foldlM_error hround
          exact h ▸ error_of_carryKv hturn
      | ok state =>
          obtain ⟨next, changed⟩ := state
          rw [hround, ok_bind] at h
          cases changed with
          | true => exact ih h
          | false => exact nomatch h

theorem unknown_lt (nodes : List NodeRecord) : unknown nodes < nodes.length + 1 :=
  Nat.lt_succ_of_le List.countP_le_length

/-- **`_propagate_nominal_kv` comes to an end** for all nodes and edges, whatever the
order of the edges. It raises if an edge has an end that is no node. At any moment the
voltages that were known are still there and all others come from them, and in the
end every edge that is no transformer has one at both ends or at neither: they are
known where a known one can come to. -/
theorem propagateNominalKv_settles (nodes : List NodeRecord) (edges : List EdgeRecord) :
    (∀ fuel, nodes.length < fuel →
      propagateRounds edges fuel nodes = propagateNominalKv nodes edges) ∧
    ((∃ nodes', propagateNominalKv nodes edges = .ok nodes') ↔
      ∀ e ∈ edges, e.edgeType ≠ .transformer → Joins nodes e) ∧
    (∀ exc, propagateNominalKv nodes edges = .error exc → exc = .keyError) ∧
    (∀ (turns : List EdgeRecord) changed nodes' changed', (∀ e ∈ turns, e ∈ edges) →
      turns.foldlM carryKv (nodes, changed) = .ok (nodes', changed') →
        Carried edges nodes nodes') ∧
    ∀ nodes', propagateNominalKv nodes edges = .ok nodes' →
      Carried edges nodes nodes' ∧ wires.Settled (carrying edges) (knownKv nodes') ∧
        (∀ id, (knownKv nodes' id).isSome ↔
          ∃ known, (knownKv nodes known).isSome ∧ wires.Conn (carrying edges) known id) ∧
        edges.foldlM carryKv (nodes', false) = .ok (nodes', false) := by
  have hfuel := unknown_lt nodes
  refine ⟨fun fuel h => propagateRounds_fuel (by omega) hfuel, ⟨fun ⟨_, h⟩ => ?_, fun h => ?_⟩,
    fun _ h => error_of_propagateRounds h, fun _ _ _ _ hturns h => turns_carried hturns h,
    fun nodes' h => ?_⟩
  · exact joins_of_propagateRounds h
  · exact exists_propagateRounds h _
  · have hlast := propagateRounds_last hfuel h
    have hcarried := propagateRounds_carried h
    have hsettled : wires.Settled (carrying edges) (knownKv nodes') := fun e he => by
      rcases turns_cases hlast with ⟨-, -, heven⟩ | ⟨hchanged, -⟩
      · exact heven e he.1 he.2
      · exact nomatch hchanged
    exact ⟨hcarried, hsettled, fun id => hcarried.spread.isSome_iff hsettled, hlast⟩

/-- Two voltages on one island, from both sides of a transformer. -/
def bridged : List NodeRecord :=
  [{ nodeId := "a", nominalKv := some (.finite 12) }, { nodeId := "b" }, { nodeId := "c" },
    { nodeId := "d", nominalKv := some (.finite 4) }]

/-- The first edge finds no voltage in the first round. -/
def bridges : List EdgeRecord :=
  [{ edgeId := .str "bc", fromNode := "b", toNode := "c" },
    { edgeId := .str "ad", fromNode := "a", toNode := "d", edgeType := .transformer },
    { edgeId := .str "ab", fromNode := "a", toNode := "b" },
    { edgeId := .str "dc", fromNode := "d", toNode := "c" }]

theorem bridged_settles : ∃ nodes', propagateNominalKv bridged bridges = .ok nodes' ∧
    nodes'.map NodeRecord.nominalKv =
      [some (.finite 12), some (.finite 12), some (.finite 4), some (.finite 4)] ∧
    Carried bridges bridged nodes' ∧ wires.Settled (carrying bridges) (knownKv nodes') ∧
    ∃ moment, (bridges.take 3).foldlM carryKv (bridged, false) = .ok (moment, true) ∧
      Carried bridges bridged moment := by
  obtain ⟨-, -, -, hmoment, hend⟩ := propagateNominalKv_settles bridged bridges
  obtain ⟨hcarried, hsettled, -⟩ := hend _ rfl
  refine ⟨_, rfl, rfl, hcarried, hsettled, _, rfl, ?_⟩
  exact hmoment (bridges.take 3) false _ true (fun _ he => List.mem_of_mem_take he) rfl

end DiepLab.Topology.Features
