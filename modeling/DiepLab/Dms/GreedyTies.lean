import DiepLab.Dms.Flisr
import DiepLab.Dms.LoopTest
import DiepLab.Grid.Radial

/-!
The greedy tie restoration of the contingency analysis.

`_restore` tries every open tie in turn, keeps it closed when that energises a
lost node and the network stays radial, and goes round again as long as a pass
has closed something. The edges are written in place: a trial closes the tie
and a rejected trial opens it again.

The invariant of the loop is `Greedy`. A turn either accepts a tie, which keeps
the invariant (`Greedy.accept`), or leaves the state as it was
(`tryTie_cases`); a pass without progress has therefore tried every tie on one
and the same state (`pass_without_progress`), which is what maximality needs.
-/

namespace DiepLab.Contingency

open Dms (closeTies)

/-- What the loop carries: the edges, written in place, the ties closed so
far, the nodes still lost and the progress flag. -/
structure Restore where
  edges : List GridEdge
  closedTies : List String
  lost : Finset String
  progress : Bool

/-- Open switchable edges other than the failed element. -/
def openable (edges : List GridEdge) (failedEid : String) : List GridEdge :=
  edges.filter fun e => !e.isClosed && e.isSwitchable && decide (e.edgeId ≠ failedEid)

/-- The trial of one tie succeeds. -/
def Accepts (nodes : List GridNode) (r : Restore) (edgeId : String) : Prop :=
  let edges := setClosed edgeId true r.edges
  (r.lost ∩ energized nodes edges).Nonempty ∧
    isRadial nodes edges (energized nodes edges) = true

instance (nodes : List GridNode) (r : Restore) (edgeId : String) :
    Decidable (Accepts nodes r edgeId) := by
  unfold Accepts
  infer_instance

/-- Close the tie for good. -/
def Restore.accept (nodes : List GridNode) (r : Restore) (edgeId : String) : Restore where
  edges := setClosed edgeId true r.edges
  closedTies := r.closedTies ++ [edgeId]
  lost := r.lost \ energized nodes (setClosed edgeId true r.edges)
  progress := true

/-- One turn of the inner loop. A refused tie is opened again. -/
def tryTie (nodes : List GridNode) (r : Restore) (e : GridEdge) : Restore :=
  if e.edgeId ∈ r.closedTies then r
  else if Accepts nodes r e.edgeId then r.accept nodes e.edgeId
  else { r with edges := setClosed e.edgeId false (setClosed e.edgeId true r.edges) }

/-- One round of the outer loop. -/
def pass (nodes : List GridNode) (ties : List GridEdge) (r : Restore) : Restore :=
  ties.foldl (tryTie nodes) { r with progress := false }

/-- `while progress and lost`. -/
def Restore.running (r : Restore) : Prop := r.progress = true ∧ r.lost.Nonempty

instance (r : Restore) : Decidable r.running := inferInstanceAs (Decidable (_ ∧ _))

def restoreLoop (nodes : List GridNode) (ties : List GridEdge) : ℕ → Restore → Restore
  | 0, r => r
  | fuel + 1, r => if r.running then restoreLoop nodes ties fuel (pass nodes ties r) else r

/-- Every round but the last closes a tie, so one round for each tie and one
more are enough. -/
def restore (nodes : List GridNode) (edges : List GridEdge) (failedEid : String)
    (lost : Finset String) : Restore :=
  restoreLoop nodes (openable edges failedEid) ((openable edges failedEid).length + 1)
    ⟨edges, [], lost, true⟩

/-! ### Closing several ties -/

theorem closeTies_eq_map (ids : List String) (edges : List GridEdge) :
    closeTies ids edges =
      edges.map fun e => if e.edgeId ∈ ids then { e with isClosed := true } else e := by
  induction ids generalizing edges with
  | nil =>
      rw [closeTies, List.foldl_nil]
      simp
  | cons eid ids ih =>
      rw [closeTies, List.foldl_cons, ← closeTies, ih, setClosed, List.map_map]
      refine List.map_congr_left fun e _ => ?_
      by_cases hid : e.edgeId = eid
      · simp [hid]
      · simp [hid]

theorem mem_closeTies_of_not_mem {ids : List String} {edges : List GridEdge} {e : GridEdge}
    (he : e ∈ closeTies ids edges) (hid : e.edgeId ∉ ids) : e ∈ edges := by
  rw [closeTies_eq_map, List.mem_map] at he
  obtain ⟨f, hf, rfl⟩ := he
  by_cases hfid : f.edgeId ∈ ids
  · rw [if_pos hfid] at hid
    exact absurd hfid hid
  · rw [if_neg hfid]
    exact hf

theorem mem_openable {edges : List GridEdge} {failedEid : String} {e : GridEdge} :
    e ∈ openable edges failedEid ↔
      e ∈ edges ∧ e.isClosed = false ∧ e.isSwitchable = true ∧ e.edgeId ≠ failedEid := by
  simp only [openable, List.mem_filter, Bool.and_eq_true, Bool.not_eq_true', decide_eq_true_eq,
    and_assoc]

theorem energized_mono {nodes : List GridNode} {edges edges' : List GridEdge}
    (h : closed edges ⊆ closed edges') : energized nodes edges ⊆ energized nodes edges' := by
  intro x hx
  obtain ⟨s, hs, hsx⟩ := mem_energized.mp hx
  exact mem_energized.mpr ⟨s, hs, hsx.mono h⟩

theorem closed_subset_setClosed_true (edgeId : String) (edges : List GridEdge) :
    closed edges ⊆ closed (setClosed edgeId true edges) :=
  fun _ hb => mem_closed_setClosed_true.mpr (Or.inl hb)

/-! ### The invariant -/

section Loop

variable (nodes : List GridNode) (base : List GridEdge) (failedEid : String)
  (lost : Finset String)

/-- Closing `eid` after `ids` energises a lost node that was dark until then. -/
def Gains (ids : List String) (eid : String) : Prop :=
  ∃ n ∈ lost, n ∉ energized nodes (closeTies ids base) ∧
    n ∈ energized nodes (closeTies (ids ++ [eid]) base)

structure Greedy (r : Restore) : Prop where
  /-- Nothing but the listed ties has been moved. -/
  edges_eq : r.edges = closeTies r.closedTies base
  ties_openable : ∀ eid ∈ r.closedTies, ∃ e ∈ openable base failedEid, e.edgeId = eid
  ties_nodup : r.closedTies.Nodup
  lost_eq : r.lost = lost \ energized nodes r.edges
  radial : r.closedTies ≠ [] → isRadial nodes r.edges (energized nodes r.edges) = true
  gains : ∀ pre eid post, r.closedTies = pre ++ eid :: post → Gains nodes base lost pre eid

variable {nodes base failedEid lost}

theorem Greedy.withProgress {r : Restore} (h : Greedy nodes base failedEid lost r) (b : Bool) :
    Greedy nodes base failedEid lost { r with progress := b } :=
  ⟨h.edges_eq, h.ties_openable, h.ties_nodup, h.lost_eq, h.radial, h.gains⟩

theorem Greedy.accept {r : Restore} (h : Greedy nodes base failedEid lost r) {e : GridEdge}
    (he : e ∈ openable base failedEid) (hnew : e.edgeId ∉ r.closedTies)
    (hacc : Accepts nodes r e.edgeId) :
    Greedy nodes base failedEid lost (r.accept nodes e.edgeId) where
  edges_eq := by
    rw [Restore.accept, Dms.closeTies_append, ← h.edges_eq]
  ties_openable eid heid := by
    rcases List.mem_append.mp heid with heid | heid
    · exact h.ties_openable eid heid
    · exact ⟨e, he, (List.mem_singleton.mp heid).symm⟩
  ties_nodup := by
    refine List.nodup_append.mpr ⟨h.ties_nodup, List.nodup_singleton _, ?_⟩
    intro a ha b hb hab
    rw [List.mem_singleton.mp hb] at hab
    exact hnew (hab ▸ ha)
  lost_eq := by
    -- what was energised before the tie still is
    have hsub : energized nodes r.edges ⊆ energized nodes (setClosed e.edgeId true r.edges) :=
      energized_mono (closed_subset_setClosed_true e.edgeId r.edges)
    show r.lost \ _ = lost \ _
    rw [h.lost_eq, sdiff_sdiff_left, Finset.sup_eq_union, Finset.union_eq_right.mpr hsub]
    rfl
  radial _ := hacc.2
  gains pre eid post heq := by
    rcases split_append_singleton heq with ⟨post', hpre, -⟩ | ⟨hpre, heid, -⟩
    · exact h.gains pre eid post' hpre
    · obtain ⟨n, hn⟩ := hacc.1
      obtain ⟨hlost, henerg⟩ := Finset.mem_inter.mp hn
      rw [h.lost_eq, Finset.mem_sdiff, h.edges_eq, hpre] at hlost
      refine ⟨n, hlost.1, hlost.2, ?_⟩
      rw [Dms.closeTies_append, ← heid, ← hpre, ← h.edges_eq]
      exact henerg

/-- Opening a tie that has only been tried gives the edges back. -/
theorem Greedy.revert (hkey : EdgeKey base) {r : Restore}
    (h : Greedy nodes base failedEid lost r) {e : GridEdge} (he : e ∈ openable base failedEid)
    (hnew : e.edgeId ∉ r.closedTies) :
    setClosed e.edgeId false (setClosed e.edgeId true r.edges) = r.edges := by
  rw [setClosed_setClosed]
  refine setClosed_eq_self fun f hf hid => ?_
  obtain ⟨hmem, hopen, -, -⟩ := mem_openable.mp he
  rw [h.edges_eq] at hf
  have hfb : f ∈ base := mem_closeTies_of_not_mem hf (hid ▸ hnew)
  rw [hkey.eq hfb hmem hid]
  exact hopen

/-- A turn accepts the tie or changes nothing. -/
theorem tryTie_cases (hkey : EdgeKey base) {r : Restore}
    (h : Greedy nodes base failedEid lost r) {e : GridEdge} (he : e ∈ openable base failedEid) :
    (e.edgeId ∉ r.closedTies ∧ Accepts nodes r e.edgeId ∧
        tryTie nodes r e = r.accept nodes e.edgeId) ∨
      ((e.edgeId ∈ r.closedTies ∨ ¬ Accepts nodes r e.edgeId) ∧ tryTie nodes r e = r) := by
  by_cases hmem : e.edgeId ∈ r.closedTies
  · exact Or.inr ⟨Or.inl hmem, if_pos hmem⟩
  · by_cases hacc : Accepts nodes r e.edgeId
    · refine Or.inl ⟨hmem, hacc, ?_⟩
      rw [tryTie, if_neg hmem, if_pos hacc]
    · refine Or.inr ⟨Or.inr hacc, ?_⟩
      rw [tryTie, if_neg hmem, if_neg hacc, h.revert hkey he hmem]

theorem Greedy.tryTie (hkey : EdgeKey base) {r : Restore}
    (h : Greedy nodes base failedEid lost r) {e : GridEdge} (he : e ∈ openable base failedEid) :
    Greedy nodes base failedEid lost (tryTie nodes r e) := by
  rcases tryTie_cases hkey h he with ⟨hnew, hacc, heq⟩ | ⟨-, heq⟩
  · rw [heq]
    exact h.accept he hnew hacc
  · rw [heq]
    exact h

/-! ### A pass -/

variable {ties : List GridEdge}

theorem Greedy.foldl_tryTie (hkey : EdgeKey base) (hties : ∀ e ∈ ties, e ∈ openable base failedEid)
    {r : Restore} (h : Greedy nodes base failedEid lost r) :
    Greedy nodes base failedEid lost (ties.foldl (Contingency.tryTie nodes) r) := by
  induction ties generalizing r with
  | nil => exact h
  | cons e ties ih =>
      rw [List.forall_mem_cons] at hties
      exact ih hties.2 (h.tryTie hkey hties.1)

theorem Greedy.pass (hkey : EdgeKey base) (hties : ∀ e ∈ ties, e ∈ openable base failedEid)
    {r : Restore} (h : Greedy nodes base failedEid lost r) :
    Greedy nodes base failedEid lost (pass nodes ties r) :=
  (h.withProgress false).foldl_tryTie hkey hties

/-- The flag is never cleared inside a pass, and it is set only together with
a new tie. -/
theorem foldl_tryTie_progress (hkey : EdgeKey base)
    (hties : ∀ e ∈ ties, e ∈ openable base failedEid) {r : Restore}
    (h : Greedy nodes base failedEid lost r) :
    r.closedTies.length ≤ (ties.foldl (Contingency.tryTie nodes) r).closedTies.length ∧
      (r.progress = true → (ties.foldl (Contingency.tryTie nodes) r).progress = true) ∧
      ((ties.foldl (Contingency.tryTie nodes) r).progress = true → r.progress = false →
        r.closedTies.length < (ties.foldl (Contingency.tryTie nodes) r).closedTies.length) := by
  induction ties generalizing r with
  | nil => exact ⟨Nat.le_refl _, id, fun h1 h2 => absurd (h2.symm.trans h1) Bool.false_ne_true⟩
  | cons e ties ih =>
      rw [List.forall_mem_cons] at hties
      obtain ⟨hlen, hkeep, hset⟩ := ih hties.2 (h.tryTie hkey hties.1)
      rw [List.foldl_cons]
      rcases tryTie_cases hkey h hties.1 with ⟨-, -, heq⟩ | ⟨-, heq⟩
      · have hgrow : (Contingency.tryTie nodes r e).closedTies.length =
            r.closedTies.length + 1 := by
          rw [heq]
          exact List.length_append
        refine ⟨by omega, fun _ => hkeep (by rw [heq]; rfl), fun _ _ => by omega⟩
      · rw [heq] at hlen hkeep hset ⊢
        exact ⟨hlen, hkeep, hset⟩

/-- A pass that has closed nothing has tried every tie on the same state. -/
theorem foldl_tryTie_without_progress (hkey : EdgeKey base)
    (hties : ∀ e ∈ ties, e ∈ openable base failedEid) {r : Restore}
    (h : Greedy nodes base failedEid lost r)
    (hstop : (ties.foldl (Contingency.tryTie nodes) r).progress = false) :
    ties.foldl (Contingency.tryTie nodes) r = r ∧
      ∀ e ∈ ties, e.edgeId ∈ r.closedTies ∨ ¬ Accepts nodes r e.edgeId := by
  induction ties generalizing r with
  | nil => exact ⟨rfl, fun e he => absurd he List.not_mem_nil⟩
  | cons e ties ih =>
      rw [List.forall_mem_cons] at hties
      rw [List.foldl_cons] at hstop ⊢
      rcases tryTie_cases hkey h hties.1 with ⟨-, -, heq⟩ | ⟨hrefused, heq⟩
      · have hkeep := (foldl_tryTie_progress hkey hties.2 (h.tryTie hkey hties.1)).2.1
        rw [heq] at hkeep hstop
        exact absurd (hstop.symm.trans (hkeep rfl)) Bool.false_ne_true
      · rw [heq] at hstop ⊢
        obtain ⟨hsame, hall⟩ := ih hties.2 h hstop
        exact ⟨hsame, List.forall_mem_cons.mpr ⟨hrefused, hall⟩⟩

theorem pass_without_progress (hkey : EdgeKey base)
    (hties : ∀ e ∈ ties, e ∈ openable base failedEid) {r : Restore}
    (h : Greedy nodes base failedEid lost r) (hstop : (pass nodes ties r).progress = false) :
    ∀ e ∈ ties, e.edgeId ∈ (pass nodes ties r).closedTies ∨
      ¬ Accepts nodes (pass nodes ties r) e.edgeId := by
  obtain ⟨hsame, hall⟩ :=
    foldl_tryTie_without_progress hkey hties (h.withProgress false) hstop
  rw [pass, hsame]
  exact hall

/-! ### The whole loop -/

/-- Listed ties are distinct openable edges, so they run out. -/
theorem Greedy.length_le {r : Restore} (h : Greedy nodes base failedEid lost r) :
    r.closedTies.length ≤ (openable base failedEid).length := by
  have hsub : r.closedTies ⊆ (openable base failedEid).map GridEdge.edgeId := by
    intro eid heid
    obtain ⟨e, he, rfl⟩ := h.ties_openable eid heid
    exact List.mem_map_of_mem he
  have hle := (h.ties_nodup.subperm hsub).length_le
  rwa [List.length_map] at hle

/-- What the loop condition leaves behind when it fails after a pass. -/
def Settled (nodes : List GridNode) (ties : List GridEdge) (r : Restore) : Prop :=
  r.lost.Nonempty → ∀ e ∈ ties, e.edgeId ∈ r.closedTies ∨ ¬ Accepts nodes r e.edgeId

/-- **The loop ends** within the fuel, in a state that keeps the invariant and
on which no tie is left to accept. A state that is not running must already
be settled. -/
theorem restoreLoop_spec (hkey : EdgeKey base) (fuel : ℕ) {r : Restore}
    (h : Greedy nodes base failedEid lost r)
    (hsettled : r.running ∨ Settled nodes (openable base failedEid) r)
    (hfuel : (openable base failedEid).length - r.closedTies.length < fuel) :
    Greedy nodes base failedEid lost
        (restoreLoop nodes (openable base failedEid) fuel r) ∧
      ¬ (restoreLoop nodes (openable base failedEid) fuel r).running ∧
      Settled nodes (openable base failedEid)
        (restoreLoop nodes (openable base failedEid) fuel r) := by
  induction fuel generalizing r with
  | zero => omega
  | succ fuel ih =>
      rw [restoreLoop]
      split
      · rename_i hrun
        have hties : ∀ e ∈ openable base failedEid, e ∈ openable base failedEid := fun _ he => he
        have hpass := h.pass hkey hties
        cases hprogress : (pass nodes (openable base failedEid) r).progress with
        | false =>
            have hidle : ¬ (pass nodes (openable base failedEid) r).running :=
              fun hr => Bool.false_ne_true (hprogress.symm.trans hr.1)
            have hset : Settled nodes (openable base failedEid)
                (pass nodes (openable base failedEid) r) :=
              fun _ => pass_without_progress hkey hties h hprogress
            have hdone : restoreLoop nodes (openable base failedEid) fuel
                (pass nodes (openable base failedEid) r) =
                pass nodes (openable base failedEid) r := by
              cases fuel with
              | zero => rfl
              | succ fuel => exact if_neg hidle
            rw [hdone]
            exact ⟨hpass, hidle, hset⟩
        | true =>
            have hgrow := (foldl_tryTie_progress hkey hties (h.withProgress false)).2.2
              hprogress rfl
            have hgrow' : r.closedTies.length <
                (pass nodes (openable base failedEid) r).closedTies.length := hgrow
            have hle := hpass.length_le
            refine ih hpass ?_ (by omega)
            by_cases hlost : (pass nodes (openable base failedEid) r).lost.Nonempty
            · exact Or.inl ⟨hprogress, hlost⟩
            · exact Or.inr fun h => absurd h hlost
      · rename_i hidle
        exact ⟨h, hidle, hsettled.resolve_left hidle⟩

/-- More fuel changes nothing once the loop condition has failed. -/
theorem restoreLoop_stable (fuel extra : ℕ) {r : Restore}
    (h : ¬ (restoreLoop nodes ties fuel r).running) :
    restoreLoop nodes ties (fuel + extra) r = restoreLoop nodes ties fuel r := by
  induction fuel generalizing r with
  | zero =>
      cases extra with
      | zero => rfl
      | succ extra =>
          rw [Nat.zero_add]
          exact if_neg h
  | succ fuel ih =>
      rw [Nat.succ_add, restoreLoop, restoreLoop]
      rw [restoreLoop] at h
      split
      · rw [if_pos ‹_›] at h
        exact ih h
      · rfl

end Loop

/-! ### What the greedy restoration does -/

/-- The nodes that an outage of `failedEid` puts out. -/
def lostBy (net : Network) (failedEid : String) : Finset String :=
  energized net.nodes net.edges \ energized net.nodes (net.setSwitch failedEid false).edges

/-- Before the first pass. -/
theorem Greedy.start (net : Network) (failedEid : String) :
    Greedy net.nodes (net.setSwitch failedEid false).edges failedEid (lostBy net failedEid)
      ⟨(net.setSwitch failedEid false).edges, [], lostBy net failedEid, true⟩ where
  edges_eq := rfl
  ties_openable eid heid := absurd heid List.not_mem_nil
  ties_nodup := .nil
  lost_eq := by
    show lostBy net failedEid = lostBy net failedEid \ _
    rw [lostBy, sdiff_sdiff_left, Finset.sup_eq_union, Finset.union_self]
  radial h := absurd rfl h
  gains pre eid post heq :=
    absurd heq.symm (List.append_ne_nil_of_right_ne_nil _ (List.cons_ne_nil _ _))

/-- The restoration of one outage, as `analyze` asks for it. -/
def restoreOutage (net : Network) (failedEid : String) : Restore :=
  restore net.nodes (net.setSwitch failedEid false).edges failedEid (lostBy net failedEid)

theorem restoreOutage_spec (net : Network) (failedEid : String) :
    Greedy net.nodes (net.setSwitch failedEid false).edges failedEid (lostBy net failedEid)
        (restoreOutage net failedEid) ∧
      ¬ (restoreOutage net failedEid).running ∧
      Settled net.nodes (openable (net.setSwitch failedEid false).edges failedEid)
        (restoreOutage net failedEid) := by
  have hstart := Greedy.start net failedEid
  refine restoreLoop_spec (net.setSwitch failedEid false).edgeKey _ hstart ?_
    (Nat.lt_succ_of_le (Nat.sub_le _ _))
  by_cases hlost : (lostBy net failedEid).Nonempty
  · exact Or.inl ⟨rfl, hlost⟩
  · exact Or.inr fun h => absurd h hlost

/-- **What the greedy restoration does.** It ends; the ties it closes were open,
switchable and not the failed element; nothing else is moved; every tie
energised a node that was still lost; a network in which a tie has been closed
is radial; and when nodes stay lost, no other open switch than the failed
element could be closed to energise one of them and stay radial. -/
theorem restore_greedy (net : Network) (failedEid : String) :
    let out := (net.setSwitch failedEid false).edges
    let lost := lostBy net failedEid
    let r := restoreOutage net failedEid
    (∀ extra, restoreLoop net.nodes (openable out failedEid)
        ((openable out failedEid).length + 1 + extra) ⟨out, [], lost, true⟩ = r ∧ ¬ r.running) ∧
    (∀ eid ∈ r.closedTies, eid ≠ failedEid ∧
      ∃ e ∈ out, e.edgeId = eid ∧ e.isClosed = false ∧ e.isSwitchable = true) ∧
    r.edges = out.map (fun e =>
      if e.edgeId ∈ r.closedTies then { e with isClosed := true } else e) ∧
    (∀ pre eid post, r.closedTies = pre ++ eid :: post → Gains net.nodes out lost pre eid) ∧
    (r.closedTies ≠ [] → isRadial net.nodes r.edges (energized net.nodes r.edges) = true) ∧
    r.lost = lost \ energized net.nodes r.edges ∧
    (r.lost.Nonempty → ∀ e ∈ r.edges, e.isClosed = false → e.isSwitchable = true →
      e.edgeId ≠ failedEid → ¬ Accepts net.nodes r e.edgeId) := by
  intro out lost r
  obtain ⟨hinv, hidle, hsettled⟩ := restoreOutage_spec net failedEid
  refine ⟨fun extra => ⟨restoreLoop_stable _ extra hidle, hidle⟩, ?_, ?_, hinv.gains, hinv.radial,
    hinv.lost_eq, ?_⟩
  · intro eid heid
    obtain ⟨e, he, rfl⟩ := hinv.ties_openable eid heid
    obtain ⟨hmem, hopen, hswitch, hne⟩ := mem_openable.mp he
    exact ⟨hne, e, hmem, rfl, hopen, hswitch⟩
  · rw [← closeTies_eq_map]
    exact hinv.edges_eq
  · intro hremain e he hopen hswitch hne
    -- an edge that is still open is as the outage left it
    have hnew : e.edgeId ∉ r.closedTies := by
      intro hmem
      have hemap := he
      rw [hinv.edges_eq, closeTies_eq_map, List.mem_map] at hemap
      obtain ⟨f, -, rfl⟩ := hemap
      split at hopen
      · exact Bool.false_ne_true hopen.symm
      · rename_i hf
        rw [if_neg hf] at hmem
        exact hf hmem
    have hout : e ∈ out := by
      rw [hinv.edges_eq] at he
      exact mem_closeTies_of_not_mem he hnew
    have htried := hsettled hremain e (mem_openable.mpr ⟨hout, hopen, hswitch, hne⟩)
    exact htried.resolve_left hnew

/-- When the failed element is itself a switch, closing it again would serve
the lost node. -/
theorem pilot_breaker_outage_not_maximal :
    (restoreOutage pilot "E-MGD900-CB").lost.Nonempty ∧
      ∃ e ∈ (restoreOutage pilot "E-MGD900-CB").edges,
        e.isClosed = false ∧ e.isSwitchable = true ∧
          Accepts pilot.nodes (restoreOutage pilot "E-MGD900-CB") e.edgeId := by
  decide +kernel

end DiepLab.Contingency
