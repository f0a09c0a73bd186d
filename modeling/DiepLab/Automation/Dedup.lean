import DiepLab.Automation.Flisr
import DiepLab.Automation.Obligations
import DiepLab.Grid.Radial
import DiepLab.Library.Interleaving

/-!
De-duplication of FLISR actions.

The FLISR policy asks, for every open outage case, whether an action of its own
for that node is open; what it finds to be free it proposes, and the proposals
are inserted one after the other when all cases have been asked about. Here
ticks, patches and control requests run concurrently, statement by statement,
while outage cases come and go.

There is at most one open action of a policy for a node at every moment of a run
in which no answer to such a query has become stale: when an action is inserted
for a node that was found free, none that was inserted since then is open. An
approval can reopen an action as well, so it has to find it open.
-/

namespace DiepLab.Automation

open StatementProgram Controls

variable {P D W WC WStmt : Type} {WResp : WStmt → Type}
variable {wsem : WC → (q : WStmt) → W → Except Exc (WResp q) × W}

/-! ### Open actions -/

/-- At most one open FLISR action of a policy for a node. -/
def AtMostOneOpen (db : ControlDb P D) : Prop :=
  ∀ node policyId, db.actions.countP (openAction "flisr" node (requester policyId)) ≤ 1

theorem openAction_iff {actionType target requestedBy : String} {row : ActionRow P D} :
    openAction actionType target requestedBy row = true ↔
      row.actionType = actionType ∧ row.target = some target ∧ row.requestedBy = requestedBy ∧
        (row.status = .PENDING ∨ row.status = .APPROVED) := by
  simp [openAction, and_assoc]

/-- What is not even recent is not open. -/
theorem recentlyTouched_of_open {recent : List String} {actionType target requestedBy : String}
    {row : ActionRow P D} (h : openAction actionType target requestedBy row = true) :
    recentlyTouched recent actionType target requestedBy row = true := by
  obtain ⟨htype, htarget, hby, hstatus⟩ := openAction_iff.mp h
  rcases hstatus with hstatus | hstatus <;> simp [recentlyTouched, htype, htarget, hby, hstatus]

/-- Only an approval makes a row open that was not. -/
theorem open_of_apply {u : StatusUpdate D} {actionType target requestedBy : String}
    {row : ActionRow P D} (h : openAction actionType target requestedBy (u.apply row) = true)
    (hrow : ∀ by_, u = .approved by_ → row.status = .PENDING ∨ row.status = .APPROVED) :
    openAction actionType target requestedBy row = true := by
  obtain ⟨htype, htarget, hby, hstatus⟩ := openAction_iff.mp h
  have hsame := u.apply_sameRequest row
  refine openAction_iff.mpr ⟨hsame.actionType.trans htype, hsame.target.trans htarget,
    hsame.requestedBy.trans hby, ?_⟩
  rw [StatusUpdate.apply_status] at hstatus
  cases u with
  | approved by_ => exact hrow by_ rfl
  | _ => simp [StatusUpdate.status] at hstatus

/-- What a statement does to the table of actions. -/
theorem controlSem_actions (c : ControlChoice) (q : ControlStmt P D) (db : ControlDb P D) :
    (controlSem c q db).2.actions = db.actions ∨
      (∃ row, q = .insertAction row ∧ (controlSem c q db).2.actions = db.actions ++ [row]) ∨
      ∃ i u read, q = .updateStatus i u read ∧
        (controlSem c q db).2.actions = updateRows i u db.actions := by
  rcases controlSem_cases c q db with h | ⟨-, h⟩
  · exact Or.inl (congrArg ControlDb.actions h)
  · rw [h]
    cases q with
    | insertAction row => exact Or.inr (Or.inl ⟨row, rfl, rfl⟩)
    | updateStatus i u read => exact Or.inr (Or.inr ⟨i, u, read, rfl, rfl⟩)
    | _ => exact Or.inl rfl

/-! ### What the queries have found -/

/-- The query has found nothing for this node. -/
def FoundFree.IsFor (node requestedBy : String) (e : FoundFree) : Prop :=
  e.actionType = "flisr" ∧ e.target = node ∧ e.requestedBy = requestedBy

instance (node requestedBy : String) (e : FoundFree) : Decidable (e.IsFor node requestedBy) :=
  inferInstanceAs (Decidable (_ ∧ _ ∧ _))

/-- At some time a query has found nothing for this node. -/
def Engine.Found (s : Engine P D W) (node requestedBy : String) : Prop :=
  ∃ e ∈ s.foundFree, e.IsFor node requestedBy

/-- And of what was inserted since then nothing is open. -/
def Engine.StillFree (s : Engine P D W) (node requestedBy : String) : Prop :=
  ∃ e ∈ s.foundFree, e.IsFor node requestedBy ∧
    ∀ row ∈ s.plane.db.actions.drop e.rows, ¬ openAction "flisr" node requestedBy row = true

instance (s : Engine P D W) (node requestedBy : String) :
    Decidable (s.Found node requestedBy) :=
  inferInstanceAs (Decidable (∃ e ∈ s.foundFree, _))

instance (s : Engine P D W) (node requestedBy : String) :
    Decidable (s.StillFree node requestedBy) :=
  inferInstanceAs (Decidable (∃ e ∈ s.foundFree, _ ∧ ∀ row ∈ _, _))

/-- The condition on a step. An action is inserted for a node that was found
free only while nothing that was inserted since then is open, and an approval
finds the action open. -/
def NotStale : AutoStmt P D ⊕ (ControlStmt P D ⊕ WStmt) → Engine P D W → Prop
  | .inr (.inl (.insertAction row)), s => row.actionType = "flisr" → ∀ node ∈ row.target,
      s.Found node row.requestedBy → s.StillFree node row.requestedBy
  | .inr (.inl (.updateStatus i (.approved _) _)), s => ∀ row ∈ s.plane.db.actions,
      row.actionId = i → row.actionType = "flisr" →
        row.status = .PENDING ∨ row.status = .APPROVED
  | _, _ => True

instance (q : AutoStmt P D ⊕ (ControlStmt P D ⊕ WStmt)) (s : Engine P D W) :
    Decidable (NotStale q s) := by
  unfold NotStale
  split <;> infer_instance

/-! ### The invariant -/

/-- At most one open action for each node, and none that a query has overlooked:
what was there when the query found nothing is still not open. -/
structure NoDuplicates (s : Engine P D W) : Prop where
  atMostOne : AtMostOneOpen s.plane.db
  free : ∀ e ∈ s.foundFree, e.rows ≤ s.plane.db.actions.length ∧
    (e.actionType = "flisr" → ∀ row ∈ s.plane.db.actions.take e.rows,
      ¬ openAction "flisr" e.target e.requestedBy row = true)

/-- Between two statements of a request the invariant holds, rows stay, and what
was found is remembered. -/
structure Dedups (a b : Engine P D W) : Prop where
  before : NoDuplicates a
  after : NoDuplicates b
  found : a.foundFree ⊆ b.foundFree
  plane : Evolves (fun _ => True) a.plane b.plane

theorem Dedups.refl {a : Engine P D W} (h : NoDuplicates a) : Dedups a a :=
  ⟨h, h, List.Subset.refl _, .refl trivial⟩

theorem Dedups.trans {a b c : Engine P D W} (hab : Dedups a b) (hbc : Dedups b c) : Dedups a c :=
  ⟨hab.before, hbc.after, List.Subset.trans hab.found hbc.found, hab.plane.trans hbc.plane⟩

theorem Engine.Found.mono {a b : Engine P D W} (h : a.foundFree ⊆ b.foundFree)
    {node requestedBy : String} (ha : a.Found node requestedBy) : b.Found node requestedBy := by
  obtain ⟨e, he, hfor⟩ := ha
  exact ⟨e, h he, hfor⟩

/-- A policy's FLISR action is inserted for a node that was found free. -/
def dedupRules : EngineRules P D WStmt WC W where
  rely := Dedups
  admits _ := NotStale
  needs _ q s := ∀ row, q = .inr (.inl (.insertAction row)) → row.actionType = "flisr" →
    ∀ node ∈ row.target, ∀ policyId, row.requestedBy = requester policyId →
      s.Found node row.requestedBy

/-! ### One step -/

section Step

variable {s t : Engine P D W}

/-- A node that is still free has no open action. -/
theorem NoDuplicates.free_closed (h : NoDuplicates s) {node requestedBy : String}
    (hfree : s.StillFree node requestedBy) :
    s.plane.db.actions.countP (openAction "flisr" node requestedBy) = 0 := by
  obtain ⟨e, he, ⟨htype, rfl, rfl⟩, hsince⟩ := hfree
  rw [List.countP_eq_zero]
  intro row hrow
  rw [← List.take_append_drop e.rows s.plane.db.actions] at hrow
  rcases List.mem_append.mp hrow with hrow | hrow
  · exact (h.free e he).2 htype row hrow
  · exact hsince row hrow

theorem NoDuplicates.insert (h : NoDuplicates s) {row : ActionRow P D}
    (hfound : t.foundFree = s.foundFree)
    (hactions : t.plane.db.actions = s.plane.db.actions ++ [row])
    (hfree : ∀ node policyId, openAction "flisr" node (requester policyId) row = true →
      s.StillFree node (requester policyId)) : NoDuplicates t where
  atMostOne node policyId := by
    rw [hactions, List.countP_append, List.countP_singleton]
    split
    · rename_i hopen
      rw [h.free_closed (hfree node policyId hopen)]
    · exact h.atMostOne node policyId
  free e he := by
    rw [hfound] at he
    obtain ⟨hrows, hclosed⟩ := h.free e he
    rw [hactions, List.take_append_of_le_length hrows, List.length_append]
    exact ⟨Nat.le_add_right_of_le hrows, hclosed⟩

theorem NoDuplicates.map (h : NoDuplicates s) {f : ActionRow P D → ActionRow P D}
    (hfound : t.foundFree = s.foundFree)
    (hactions : t.plane.db.actions = s.plane.db.actions.map f)
    (hf : ∀ row ∈ s.plane.db.actions, ∀ node requestedBy,
      openAction "flisr" node requestedBy (f row) = true →
        openAction "flisr" node requestedBy row = true) : NoDuplicates t where
  atMostOne node policyId := by
    rw [hactions, List.countP_map]
    exact (List.countP_mono_left fun row hrow => hf row hrow _ _).trans (h.atMostOne node policyId)
  free e he := by
    rw [hfound] at he
    obtain ⟨hrows, hclosed⟩ := h.free e he
    rw [hactions, List.length_map, ← List.map_take]
    refine ⟨hrows, fun htype row' hrow' hopen => ?_⟩
    obtain ⟨row, hrow, rfl⟩ := List.mem_map.mp hrow'
    exact hclosed htype row hrow (hf row (List.mem_of_mem_take hrow) _ _ hopen)

theorem NoDuplicates.same (h : NoDuplicates s) (hfound : t.foundFree = s.foundFree)
    (hactions : t.plane.db.actions = s.plane.db.actions) : NoDuplicates t :=
  h.map hfound (hactions.trans (List.map_id _).symm) fun _ _ _ _ hopen => hopen

/-- A query that finds nothing finds nothing open. -/
theorem NoDuplicates.dedup (h : NoDuplicates s) (recent : List String)
    (actionType target requestedBy : String) :
    NoDuplicates (s.dedup recent actionType target requestedBy).2 := by
  unfold Engine.dedup
  split
  · exact h
  · rename_i hnone
    refine ⟨h.atMostOne, fun e he => ?_⟩
    rcases List.mem_cons.mp he with rfl | he
    · refine ⟨le_refl _, fun htype row hrow hopen => hnone ?_⟩
      obtain rfl : actionType = "flisr" := htype
      exact List.any_eq_true.mpr ⟨row, List.mem_of_mem_take hrow, recentlyTouched_of_open hopen⟩
    · exact h.free e he

theorem foundFree_sem (c : AutoChoice × ControlChoice × WC)
    (q : AutoStmt P D ⊕ (ControlStmt P D ⊕ WStmt)) (s : Engine P D W) :
    s.foundFree ⊆ (engineSem wsem c q s).2.foundFree := by
  cases q with
  | inr q => exact List.Subset.refl _
  | inl q =>
      simp only [engineSem, autoSem]
      cases q.failure c.1 with
      | some e => exact List.Subset.refl _
      | none =>
          cases q with
          | recentAction actionType target requestedBy =>
              simp only [autoExec, Engine.dedup]
              split
              · exact List.Subset.refl _
              · exact List.subset_cons_self _ _
          | _ => exact List.Subset.refl _

theorem noDuplicates_auto (c : AutoChoice) (q : AutoStmt P D) (h : NoDuplicates s) :
    NoDuplicates (autoSem c q s).2 := by
  rw [autoSem]
  cases q.failure c with
  | some e => exact h
  | none =>
      cases q with
      | recentAction actionType target requestedBy => exact h.dedup _ _ _ _
      | _ => exact h.same rfl rfl

/-- **One step.** A statement that inserts a policy's action only for a node
that was found free, on an answer that is not stale, keeps the invariant. -/
theorem noDuplicates_sem (c : AutoChoice × ControlChoice × WC)
    (q : AutoStmt P D ⊕ (ControlStmt P D ⊕ WStmt)) (h : NoDuplicates s) (hadm : NotStale q s)
    (hneeds : dedupRules.needs c q s) : NoDuplicates (engineSem wsem c q s).2 := by
  rcases q with q | q | q
  · exact noDuplicates_auto c.1 q h
  · rcases controlSem_actions c.2.1 q s.plane.db with hsame | ⟨row, rfl, hinsert⟩ |
      ⟨i, u, read, rfl, hupdate⟩
    · exact h.same rfl hsame
    -- the rules ask that the node was found free, and the answer is not stale
    · refine h.insert rfl hinsert fun node policyId hopen => ?_
      obtain ⟨htype, htarget, hby, -⟩ := openAction_iff.mp hopen
      rw [← hby]
      exact hadm htype node htarget (hneeds row rfl htype node htarget policyId hby)
    · refine h.map rfl hupdate fun row hrow node requestedBy hopen => ?_
      split at hopen
      · rename_i hid
        refine open_of_apply hopen ?_
        rintro by_ rfl
        exact hadm row hrow hid (openAction_iff.mp hopen).1
      · exact hopen
  · exact h.same rfl rfl

theorem dedups_sem (c : AutoChoice × ControlChoice × WC)
    (q : AutoStmt P D ⊕ (ControlStmt P D ⊕ WStmt)) (h : NoDuplicates s) (hadm : NotStale q s)
    (hneeds : dedupRules.needs c q s) : Dedups s (engineSem wsem c q s).2 where
  before := h
  after := noDuplicates_sem c q h hadm hneeds
  found := foundFree_sem c q s
  plane := by
    cases q with
    | inl q =>
        rw [show (engineSem wsem c (.inl q) s).2.plane = s.plane from autoSem_plane c.1 q s]
        exact .refl trivial
    | inr q => exact evolves_sem c.2 q s.plane

end Step

/-! ### One proposal -/

/-- The statement inserts no action. -/
def InsertsNothing : AutoStmt P D ⊕ (ControlStmt P D ⊕ WStmt) → Prop
  | .inr (.inl (.insertAction _)) => False
  | _ => True

theorem dedupRules_harmless {q : AutoStmt P D ⊕ (ControlStmt P D ⊕ WStmt)}
    (hq : InsertsNothing q) : Harmless (dedupRules : EngineRules P D WStmt WC W) q := by
  rintro c s row rfl
  exact hq.elim

theorem InTables.insertsNothing {q : AutoStmt P D ⊕ (ControlStmt P D ⊕ WStmt)}
    (hq : InTables q) : InsertsNothing q := by
  rcases q with q | q | q
  · trivial
  · cases q with
    | insertAction row => exact hq
    | _ => trivial
  · trivial

theorem evaluates_insertsNothing {q : AutoStmt P D ⊕ (ControlStmt P D ⊕ WStmt)}
    (hq : Evaluates q) : InsertsNothing q := by
  rcases q with q | q | q
  · trivial
  · exact hq.elim
  · trivial

/-- What is known of a proposal: if it is a FLISR action for a node, then a
query has found the node to be free. -/
def FoundFor (policy : PolicyRow) (prop : Proposal P) (s : Engine P D W) : Prop :=
  prop.actionType = "flisr" → ∀ node ∈ prop.target, s.Found node (requester policy.policyId)

theorem FoundFor.mono {policy : PolicyRow} {prop : Proposal P} {a b : Engine P D W}
    (h : a.foundFree ⊆ b.foundFree) (ha : FoundFor policy prop a) : FoundFor policy prop b :=
  fun htype node hnode => (ha htype node hnode).mono h

/-- What is inserted is what was proposed. -/
def InsertsAsked (policy : PolicyRow) (prop : Proposal P) (q : ControlStmt P D)
    (_ : Plane P D W) : Prop :=
  ∀ row, q = .insertAction row →
    Asked prop.actionType prop.target prop.params prop.mode (requester policy.policyId) row

theorem dedup_lifts (policy : PolicyRow) (prop : Proposal P) :
    Lifts (dedupRules : EngineRules P D WStmt WC W)
      (callRules (fun _ _ => True) (InsertsAsked policy prop)) (FoundFor policy prop) where
  frame _ _ hJ := hJ
  rely a b hJ hab := ⟨hab.plane, hJ.mono hab.found⟩
  admits _ _ _ _ _ _ _ := trivial
  needs c q s hJ hneeds := by
    rintro row heq htype node hnode policyId -
    injection heq with heq
    have hasked := hneeds _ heq row rfl
    rw [hasked.requestedBy]
    exact hJ (hasked.actionType.symm.trans htype) node (hasked.target ▸ hnode)

variable {handlers : Registry P D WResp} {threshold : ℤ}

theorem dedup_proposes (policy : PolicyRow) (obj : AutomationPolicy P D WResp)
    (prop : Proposal P) :
    Proposes dedupRules wsem handlers threshold policy obj prop (FoundFor policy prop) := by
  have hmark : InsertsNothing (mark policy prop : AutoStmt P D ⊕ (ControlStmt P D ⊕ WStmt)) :=
    trivial
  refine fun c s hfound _ => ⟨dedupRules_harmless hmark c s, ?_⟩
  have hN (q : ControlStmt P D) (s : Plane P D W) (hq : Idle q) : InsertsAsked policy prop q s := by
    rintro row rfl
    exact hq.elim
  refine wp_runProposal (K := fun _ => True)
    (fun q hq => dedupRules_harmless hq.inTables.insertsNothing) hN (dedup_lifts policy prop)
    hfound ?_ ?_ ?_
  · intro handler hh
    exact runs_keeps ((callRules_calm_of_idle hN).plan _ _ hh _ _) (.refl trivial)
      fun _ _ h => ⟨h, trivial⟩
  · rintro row hasked s row' heq
    injection heq with heq
    exact heq ▸ hasked
  · intro _ _ _ _ row _
    exact ⟨fun _ _ _ _ heq => (nomatch heq), fun _ _ _ heq => nomatch heq⟩

/-- Every policy whose evaluation asks before it proposes. -/
theorem dedup_allows {policy : PolicyRow} {obj : AutomationPolicy P D WResp}
    (heval : ∀ s : Engine P D W, wp (engineSem wsem) dedupRules (obj.evaluate policy)
      (fun r s' => ∀ props, r = .ok props → ∀ prop ∈ props, FoundFor policy prop s') s) :
    Allows dedupRules wsem handlers threshold policy obj (FoundFor policy) where
  rely _ _ _ hab h := h.mono hab.found
  sem _ c q s h := h.mono (foundFree_sem c q s)
  evaluate := heval
  proposes prop := dedup_proposes policy obj prop

/-! ### The evaluation of the FLISR policy -/

/-- The proposals for one case name its node. -/
theorem FlisrAuto.proposals_target {caseId fn : String} {plan : Option Dms.FlisrPlan}
    {prop : Proposal ActionParams} (h : prop ∈ FlisrAuto.proposals caseId fn plan) :
    prop.target = some fn := by
  cases plan with
  | none => exact absurd h List.not_mem_nil
  | some p =>
      simp only [FlisrAuto.proposals] at h
      split at h
      · exact absurd h List.not_mem_nil
      · rw [List.mem_singleton.mp h]

/-- A query that succeeds and finds nothing is remembered. -/
theorem found_of_dedup {c : AutoChoice} {node requestedBy : String} {s : Engine P D W}
    (h : (autoSem c (.recentAction "flisr" node requestedBy) s).1 = .ok false) :
    (autoSem c (.recentAction "flisr" node requestedBy) s).2.Found node requestedBy := by
  rw [autoSem] at h ⊢
  cases hfail : AutoStmt.failure c (.recentAction "flisr" node requestedBy : AutoStmt P D) with
  | some e => simp [hfail] at h
  | none =>
      simp only [hfail, autoExec, Engine.dedup] at h ⊢
      split at h
      · simp at h
      · rename_i hnone
        rw [if_neg hnone]
        exact ⟨⟨_, _, _, _⟩, List.mem_cons_self, rfl, rfl, rfl⟩

theorem dedup_evaluates {α : Type} {p : EngineProg P D WResp α} (hp : p.Issues Evaluates)
    (s : Engine P D W) : wp (engineSem wsem) dedupRules p (fun _ _ => True) s :=
  wp.of_issues_needs (fun c _ s hq => dedupRules_harmless (evaluates_insertsNothing hq) c s) hp s

/-- That a node was found free is remembered. -/
theorem dedup_remembers {α : Type} {p : EngineProg P D WResp α}
    {Q : Except Exc α → Engine P D W → Prop} {s : Engine P D W} {node requestedBy : String}
    (hs : s.Found node requestedBy) (hp : wp (engineSem wsem) dedupRules p Q s) :
    wp (engineSem wsem) dedupRules p (fun r s' => Q r s' ∧ s'.Found node requestedBy) s :=
  wp.and_kept (fun _ _ hab h => h.mono hab.found) (fun c q s h => h.mono (foundFree_sem c q s))
    hs hp

theorem dedup_evaluateCases (policy : PolicyRow) (cases : List (String × String))
    (s : Engine ActionParams ActionDoc GridDb) :
    wp (engineSem gridSem) dedupRules (FlisrAuto.evaluateCases policy.policyId cases)
      (fun r s' => ∀ props, r = .ok props → ∀ prop ∈ props, FoundFor policy prop s') s := by
  induction cases generalizing s with
  | nil =>
      intro props hprops prop hprop
      injection hprops with hprops
      rw [← hprops] at hprop
      exact absurd hprop List.not_mem_nil
  | cons case cases ih =>
      obtain ⟨caseId, fn⟩ := case
      unfold FlisrAuto.evaluateCases
      rw [wp_bind]
      refine (wp_call _ _ _ _ _).mpr fun s₁ _ c _ =>
        ⟨dedupRules_harmless (by trivial) c s₁, ?_⟩
      cases hanswer : (engineSem gridSem c
          (.inl (.recentAction "flisr" fn (requester policy.policyId))) s₁).1 with
      | error e => exact fun _ h => nomatch h
      | ok dup =>
          cases dup with
          | true => exact ih _
          | false =>
              -- the query has found no action for the node, and the ghost remembers it
              have hfound := found_of_dedup hanswer
              have hevaluates : ∀ s, wp (engineSem gridSem) dedupRules (FlisrAuto.candidate fn)
                  (fun _ _ => True) s := dedup_evaluates (FlisrAuto.candidate_evaluates fn)
              have hcandidate := dedup_remembers hfound (hevaluates _)
              refine wp.bind hcandidate (fun plan s₂ hs₂ => ?_) fun _ _ _ _ h => nomatch h
              refine wp.bind (dedup_remembers hs₂.2 (ih s₂)) (fun later s₃ hs₃ => ?_)
                fun _ _ _ _ h => nomatch h
              intro props hprops prop hprop
              injection hprops with hprops
              rw [← hprops] at hprop
              rcases List.mem_append.mp hprop with hprop | hprop
              -- the proposals of this case are for its own node
              · intro _ node hnode
                rw [FlisrAuto.proposals_target hprop] at hnode
                obtain rfl : fn = node := by simpa using hnode
                exact hs₃.2
              · exact hs₃.1 later rfl prop hprop

/-! ### The requests -/

/-- The request creates no action in the name of a policy. -/
def NotByPolicy : Request P → Prop
  | .create _ _ _ _ _ principal => ∀ policyId, principal.name ≠ requester policyId
  | _ => True

/-- What is served concurrently. -/
inductive EngineRequest (P : Type) where
  | tick
  | patch (policyId : String) (body : PolicyPatch) (principal : Principal)
  | control (r : Request P) (h : NotByPolicy r)

def serveEngine (handlers : Registry P D WResp) (threshold : ℤ)
    (policies : PolicyRegistry P D WResp) : EngineRequest P → EngineProg P D WResp Unit
  | .tick => do
      let _ ← tick handlers threshold policies
      pure ()
  | .patch policyId body principal => do
      let _ ← patchPolicy policyId body principal
      pure ()
  | .control r _ => (serve handlers r).inr

/-- What happens around the requests: policies and flags are changed, and the
world, with it the outage cases. -/
inductive EngineSurroundings (W : Type) where
  | policies (rows : List PolicyRow)
  | setEnabled (automation controls : Bool)
  | world (w : W)

def surroundEngine : EngineSurroundings W → Engine P D W → Engine P D W
  | .policies rows, s => { s with auto := { s.auto with policies := rows } }
  | .setEnabled automation controls, s =>
      { s with
        auto := { s.auto with enabled := automation }
        plane := { s.plane with db := { s.plane.db with enabled := controls } } }
  | .world w, s => { s with plane := { s.plane with world := w } }

theorem dedups_surround (a : EngineSurroundings W) {s : Engine P D W} (h : NoDuplicates s) :
    Dedups s (surroundEngine a s) := by
  have hrows : Evolves (fun _ => True) s.plane (surroundEngine a s).plane := by
    cases a <;> exact ⟨trivial, trivial, List.prefix_rfl, fun _ row hrow => ⟨row, hrow, .refl row⟩⟩
  cases a <;> exact ⟨h, h.same rfl rfl, List.Subset.refl _, hrows⟩

/-- A request of the control plane inserts nothing in the name of a policy. -/
def ByNoPolicy (q : ControlStmt P D) (_ : Plane P D W) : Prop :=
  ∀ row, q = .insertAction row → ∀ policyId, row.requestedBy ≠ requester policyId

theorem control_lifts : Lifts (dedupRules : EngineRules P D WStmt WC W)
    (callRules (fun _ _ => True) ByNoPolicy) (fun _ => True) where
  frame _ _ _ := trivial
  rely _ _ _ hab := ⟨hab.plane, trivial⟩
  admits _ _ _ _ _ _ _ := trivial
  needs c q s _ hneeds := by
    rintro row heq - node - policyId hby
    injection heq with heq
    exact absurd hby (hneeds _ heq row rfl policyId)

theorem control_serve (handlers : Registry P D WResp) {r : Request P} (hr : NotByPolicy r)
    (s : Plane P D W) :
    wp (planeSem wsem) (callRules (fun _ _ => True) ByNoPolicy) (serve handlers r)
      (fun _ _ => True) s := by
  have hcalm : Calm wsem handlers (callRules (fun _ _ => True) ByNoPolicy) :=
    callRules_calm handlers fun q s hq row heq => by
      subst heq
      exact hq.elim
  have safe {q : ControlStmt P D} {s' : Plane P D W} (hq : ∀ row, q ≠ .insertAction row) :
      Safe wsem (callRules (fun _ _ => True) ByNoPolicy) q s' :=
    callRules_safe fun row heq => absurd heq (hq row)
  cases r with
  | create actionType target params mode reason principal =>
      refine (hcalm.runs_createAction (.refl trivial) fun row s' _ _ _ hby => ?_).discard
      refine callRules_safe fun row' heq policyId => ?_
      injection heq with heq
      rw [← heq, hby]
      exact hr policyId
  | approve i reason principal =>
      exact (hcalm.runs_approve (fun _ _ _ _ _ _ _ _ => safe fun _ heq => (nomatch heq))
        fun _ _ _ => safe fun _ heq => (nomatch heq)).discard
  | reject i reason principal =>
      exact (hcalm.runs_reject (fun _ _ _ _ _ _ _ => safe fun _ heq => (nomatch heq))
        fun _ _ _ => safe fun _ heq => (nomatch heq)).discard
  | execute i principal =>
      exact (hcalm.runs_execute (fun _ _ _ _ _ _ _ _ => safe fun _ heq => (nomatch heq))
        (fun _ _ _ _ _ _ _ _ _ _ _ _ => safe fun _ heq => (nomatch heq))
        (fun _ _ _ _ _ _ _ _ _ => safe fun _ heq => (nomatch heq))
        fun _ _ => safe fun _ heq => (nomatch heq)).discard
  | rollback i principal =>
      exact (hcalm.runs_rollback (fun _ _ _ _ _ _ _ => safe fun _ heq => (nomatch heq))
        (fun _ _ _ _ _ _ _ _ => safe fun _ heq => (nomatch heq))
        fun _ _ => safe fun _ heq => (nomatch heq)).discard

section Serve

variable {handlers : Registry ActionParams ActionDoc GridResp} {threshold : ℤ}
variable {others : PolicyRegistry ActionParams ActionDoc GridResp}

/-- A policy kind that proposes no FLISR actions. -/
def ProposesNoFlisr (obj : AutomationPolicy ActionParams ActionDoc GridResp) : Prop :=
  ∀ policy, (obj.evaluate policy).Returns fun props => ∀ prop ∈ props, prop.actionType ≠ "flisr"

theorem dedup_tick (hothers : ∀ kind obj, others kind = some obj → ProposesNoFlisr obj)
    (s : Engine ActionParams ActionDoc GridDb) :
    wp (engineSem gridSem) dedupRules (tick handlers threshold (withFlisr others))
      (fun _ _ => True) s := by
  refine wp_tick (fun q hq => dedupRules_harmless hq.inTables.insertsNothing) ?_ s
  refine fun policy _ _ obj hobj => ⟨_, dedup_allows fun s => ?_⟩
  by_cases hkind : policy.kind = "flisr"
  · rw [withFlisr, if_pos hkind] at hobj
    injection hobj with hobj
    subst hobj
    exact wp.bind (dedup_evaluates (FlisrAuto.world_evaluates _) s)
      (fun cases s' _ => dedup_evaluateCases policy cases s') fun _ _ _ _ h => nomatch h
  · rw [withFlisr, if_neg hkind] at hobj
    refine (wp.of_issues_returns
      (fun c q s hq => dedupRules_harmless (evaluates_insertsNothing hq) c s)
      (obj.evaluates policy) (hothers policy.kind obj hobj policy) s).mono fun r s' hr => ?_
    exact fun props hprops prop hprop htype => absurd htype (hr props hprops prop hprop)

theorem dedup_serve (hothers : ∀ kind obj, others kind = some obj → ProposesNoFlisr obj)
    (r : EngineRequest ActionParams) (s : Engine ActionParams ActionDoc GridDb) :
    wp (engineSem gridSem) dedupRules (serveEngine handlers threshold (withFlisr others) r)
      (fun _ _ => True) s := by
  cases r with
  | tick =>
      exact wp.bind (dedup_tick hothers s) (fun _ _ _ => trivial) fun _ _ _ => trivial
  | patch policyId body principal =>
      exact wp.of_issues_needs
        (fun c q s hq => dedupRules_harmless (InTables.insertsNothing hq) c s)
        ((patchPolicy_issues policyId body principal).bind fun _ => Prog.issues_pure _) s
  | control r hr =>
      exact (control_lifts.plane trivial (control_serve handlers hr s.plane)).mono
        fun _ _ _ => trivial

theorem dedup_cooperative
    (hothers : ∀ kind obj, others kind = some obj → ProposesNoFlisr obj) :
    Cooperative (engineSem gridSem) (serveEngine handlers threshold (withFlisr others))
      surroundEngine dedupRules where
  trans _ _ _ := Dedups.trans
  self _ _ hab := .refl hab.after
  stmt c q _ hs hadm hneeds := dedups_sem c q hs.after hadm hneeds
  env a _ hs := dedups_surround a hs.after
  serve r s _ := dedup_serve hothers r s

/-- **One action at a time.** Let ticks, patches and control requests run
concurrently, with outage cases, policies and flags changing at any time. When
no action is inserted on a stale answer, and no approval comes late, there is at
every moment at most one open FLISR action of a policy for a node. -/
theorem at_most_one_open
    (hothers : ∀ kind obj, others kind = some obj → ProposesNoFlisr obj)
    (auto : AutoDb ActionDoc) (plane : Plane ActionParams ActionDoc GridDb)
    (hstart : AtMostOneOpen plane.db)
    (schedule : List (Event (AutoChoice × ControlChoice × GridChoice)
      (EngineRequest ActionParams) (EngineSurroundings GridDb)))
    (hsteps : Config.AllSteps (engineSem gridSem)
      (serveEngine handlers threshold (withFlisr others)) surroundEngine (fun _ => NotStale)
      ⟨{ auto := auto, plane := plane }, []⟩ schedule) (n : ℕ) :
    AtMostOneOpen (Config.run (engineSem gridSem)
      (serveEngine handlers threshold (withFlisr others)) surroundEngine
      ⟨{ auto := auto, plane := plane }, []⟩ (schedule.take n)).state.plane.db := by
  have hnone : NoDuplicates { auto := auto, plane := plane } :=
    ⟨hstart, fun e he => absurd he List.not_mem_nil⟩
  have hrun := (dedup_cooperative hothers).run (schedule.take n)
    ⟨.refl hnone, fun _ hp => absurd hp List.not_mem_nil⟩ (hsteps.take _ _ _ n)
  exact hrun.1.after.atMostOne

end Serve

/-! ### The pilot network -/

/-- Next to the FLISR policy, the demonstrator. -/
def noopOnly : PolicyRegistry ActionParams ActionDoc GridResp :=
  fun kind => if kind = "noop" then some (noopAutoPolicy fun _ => {}) else none

theorem noopOnly_proposesNoFlisr (kind : String)
    (obj : AutomationPolicy ActionParams ActionDoc GridResp) (h : noopOnly kind = some obj) :
    ProposesNoFlisr obj := by
  unfold noopOnly at h
  split at h
  · injection h with h
    subst h
    intro policy prop hprop
    rw [List.mem_singleton.mp hprop]
    exact (by decide : "noop" ≠ "flisr")
  · cases h

/-- The FLISR policy in mode `recommend`. -/
def recommending (maxPerTick : ℤ) : AutoDb ActionDoc where
  enabled := true
  policies := [{
    policyId := "flisr_auto", kind := "flisr", enabled := true
    bounds := { maxPerTick := some maxPerTick } }]

def withCases (cases : List OutageCase) : Plane ActionParams ActionDoc GridDb where
  db := { enabled := true }
  world := { network := pilot, outageCases := cases }

abbrev EngineEvent := Event (AutoChoice × ControlChoice × GridChoice)
  (EngineRequest ActionParams) (EngineSurroundings GridDb)

/-- The `i`-th request issues its next `n` statements; identifiers are drawn as
`uuid`. -/
def engineTurns (i : ℕ) (uuid : String) (n : ℕ) : List EngineEvent :=
  List.replicate n (.act i ({}, { uuid := uuid }, {}))

def oneCase : List OutageCase := [⟨"OUT-1", .CONFIRMED, some "TX-01"⟩]

def twoCases : List OutageCase :=
  [⟨"OUT-1", .CONFIRMED, some "TX-01"⟩, ⟨"OUT-2", .DETECTED, some "TX-01"⟩]

/-- A second case for the node is opened while the first tick is under way. The
tick that follows finds the action of the first, which is then approved. -/
def secondCase : List EngineEvent :=
  .spawn .tick :: engineTurns 0 "a1" 15 ++
    .env (.world (withCases twoCases).world) :: engineTurns 0 "a1" 15 ++
    .spawn .tick :: engineTurns 1 "a2" 15 ++
    .spawn (.control (.approve "a1" none ⟨"engineer", none⟩) trivial) :: engineTurns 2 "" 10

theorem at_most_one_open_for_pilot :
    AtMostOneOpen (Config.run (engineSem gridSem)
      (serveEngine switchingHandlers 3 (withFlisr noopOnly)) surroundEngine
      ⟨{ auto := recommending 2, plane := withCases oneCase }, []⟩
      (secondCase.take 60)).state.plane.db := by
  have hstart : AtMostOneOpen (withCases oneCase).db := fun _ _ => Nat.zero_le 1
  exact at_most_one_open noopOnly_proposesNoFlisr (recommending 2) (withCases oneCase) hstart
    secondCase (by decide +kernel) 60

/-- Two open cases for one node make one tick insert two actions; and so do two
ticks that have both asked before either inserts. -/
theorem duplicates_inserted :
    (¬ AtMostOneOpen (
      let schedule := .spawn .tick :: engineTurns 0 "a1" 30 ++ engineTurns 0 "a2" 30
      (Config.run (engineSem gridSem) (serveEngine switchingHandlers 3 (withFlisr noopOnly))
        surroundEngine ⟨{ auto := recommending 2, plane := withCases twoCases }, []⟩
        schedule).state.plane.db)) ∧
    ¬ AtMostOneOpen (
      let schedule := .spawn .tick :: .spawn .tick :: engineTurns 0 "a1" 10 ++
        engineTurns 1 "a2" 30 ++ engineTurns 0 "a1" 20
      (Config.run (engineSem gridSem) (serveEngine switchingHandlers 3 (withFlisr noopOnly))
        surroundEngine ⟨{ auto := recommending 1, plane := withCases oneCase }, []⟩
        schedule).state.plane.db) := by
  constructor
  · exact fun h => absurd (h "TX-01" "flisr_auto") (by decide +kernel)
  · exact fun h => absurd (h "TX-01" "flisr_auto") (by decide +kernel)

end DiepLab.Automation
