import DiepLab.Library.Interleaving
import DiepLab.Oms.Upsert

/-!
One open outage case for a node.

Sweeps, calls and manual cases are served concurrently, statement by statement.
Only the sweep asks whether a node has an open case before it inserts one, and
it asks in an earlier statement; a manual case and a change of status do not
ask at all.

`one_open_case` is what remains: every node has at most one open case at every
moment of a run in which no answer to such a query has become stale, a manual
case is only inserted where none is open, and a case is only reopened where no
other is.
-/

namespace DiepLab.Oms

open StatementProgram

/-! ### Watching for open cases -/

def AtMostOneCase (db : OmsDb) : Prop := ∀ node, db.cases.countP (openAt node) ≤ 1

/-- The database, the queries that have found no open case, each with the number
of openings before it, and the nodes at which a case was opened, in order. -/
structure Watched where
  db : OmsDb
  found : List (String × ℕ) := []
  opened : List String := []

/-- The nodes of the cases that are open now and were not before. -/
def newlyOpen (old new : List CaseRow) : List String :=
  (new.filter fun c => isOpen c.status && !old.any fun d =>
    d.caseId = c.caseId && d.affectedNodeId = c.affectedNodeId && isOpen d.status).filterMap
      CaseRow.affectedNodeId

def Watched.note (s : Watched) : (q : OmsStmt) → Except Exc (OmsResp q) → List (String × ℕ)
  | .openCaseForNode node, .ok none => (node, s.opened.length) :: s.found
  | _, _ => s.found

/-- The semantics of the database, watched. -/
def watchSem (c : OmsChoice) (q : OmsStmt) (s : Watched) :
    Except Exc (OmsResp q) × Watched :=
  let out := omsSem c q s.db
  (out.1, {
    db := out.2
    found := s.note q out.1
    opened := s.opened ++ newlyOpen s.db.cases out.2.cases })

/-- At some time a query has found no open case at the node. -/
def Watched.Found (s : Watched) (node : String) : Prop := ∃ e ∈ s.found, e.1 = node

/-- And none was opened there since then. -/
def Watched.StillFree (s : Watched) (node : String) : Prop :=
  ∃ e ∈ s.found, e.1 = node ∧ node ∉ s.opened.drop e.2

/-- No case of the node is open. -/
def Vacant (db : OmsDb) (node : String) : Prop := ∀ c ∈ db.cases, ¬ openAt node c = true

instance (s : Watched) (node : String) : Decidable (s.Found node) :=
  inferInstanceAs (Decidable (∃ e ∈ s.found, _))

instance (s : Watched) (node : String) : Decidable (s.StillFree node) :=
  inferInstanceAs (Decidable (∃ e ∈ s.found, _))

instance (db : OmsDb) (node : String) : Decidable (Vacant db node) :=
  inferInstanceAs (Decidable (∀ c ∈ db.cases, _))

/-- The condition on a step. A sweep inserts a case on a fresh answer, a manual
case is inserted at a node without an open one, and so is a case reopened. -/
def Timely : OmsStmt → Watched → Prop
  | .insertDetected _ _ node _ _, s => s.Found node → s.StillFree node
  | .insertConfirmed _ _ node _ _ _, s => Vacant s.db node
  | .updateCase caseId u, s => ∀ status ∈ u.status, isOpen status = true →
      ∀ c ∈ s.db.cases, c.caseId = caseId →
        isOpen c.status = true ∨ ∀ node ∈ c.affectedNodeId, Vacant s.db node
  | _, _ => True

instance (q : OmsStmt) (s : Watched) : Decidable (Timely q s) := by
  unfold Timely
  split <;> infer_instance

/-! ### The invariant -/

/-- At most one open case for each node, and none where a query has found none
and none was opened since. -/
structure OneOpen (s : Watched) : Prop where
  atMostOne : AtMostOneCase s.db
  free : ∀ e ∈ s.found, e.2 ≤ s.opened.length ∧ (e.1 ∉ s.opened.drop e.2 → Vacant s.db e.1)

/-- Between two statements of a request the invariant holds and what was found
is remembered. -/
structure Watches (a b : Watched) : Prop where
  before : OneOpen a
  after : OneOpen b
  found : a.found ⊆ b.found

theorem Watches.refl {a : Watched} (h : OneOpen a) : Watches a a :=
  ⟨h, h, List.Subset.refl _⟩

theorem Watches.trans {a b c : Watched} (hab : Watches a b) (hbc : Watches b c) : Watches a c :=
  ⟨hab.before, hbc.after, List.Subset.trans hab.found hbc.found⟩

theorem Watched.Found.mono {a b : Watched} (h : a.found ⊆ b.found) {node : String}
    (ha : a.Found node) : b.Found node := by
  obtain ⟨e, he, hnode⟩ := ha
  exact ⟨e, h he, hnode⟩

/-- A sweep inserts a case where a query has found none. -/
def watchRules : Rules OmsStmt OmsChoice Watched where
  rely := Watches
  admits _ := Timely
  needs _ q s := ∀ caseId cause node customersAffected version,
    q = .insertDetected caseId cause node customersAffected version → s.Found node

/-! ### One step -/

theorem vacant_iff {db : OmsDb} {node : String} :
    Vacant db node ↔ db.openCaseForNode node = none := by
  rw [OmsDb.openCaseForNode, latestDetected_eq_none, List.filter_eq_nil_iff]
  rfl

/-- What a statement does to the cases. -/
theorem omsSem_cases (c : OmsChoice) (q : OmsStmt) (db : OmsDb) :
    (omsSem c q db).2.cases = db.cases ∨
      (∃ caseId cause node customersAffected version row,
        q = .insertDetected caseId cause node customersAffected version ∧
        row.affectedNodeId = some node ∧ (omsSem c q db).2.cases = db.cases ++ [row]) ∨
      (∃ caseId cause node customersAffected notes version row,
        q = .insertConfirmed caseId cause node customersAffected notes version ∧
        row.affectedNodeId = some node ∧ (omsSem c q db).2.cases = db.cases ++ [row]) ∨
      ∃ caseId u, q = .updateCase caseId u ∧
        (omsSem c q db).2.cases = updateRows caseId (u.apply c.now) db.cases := by
  have hinsert (row : CaseRow) : (db.insertCase row).2.cases = db.cases ∨
      (db.insertCase row).2.cases = db.cases ++ [row] := by
    unfold OmsDb.insertCase
    split
    · exact Or.inl rfl
    · split
      · exact Or.inr rfl
      · exact Or.inl rfl
  rw [omsSem]
  cases q.failure c with
  | some e => exact Or.inl rfl
  | none =>
      cases q with
      | updateCase caseId u => exact Or.inr (Or.inr (Or.inr ⟨caseId, u, rfl, rfl⟩))
      | insertDetected caseId cause node customersAffected version =>
          refine (hinsert _).imp id fun h => Or.inl ⟨_, _, _, _, _, _, rfl, rfl, h⟩
      | insertConfirmed caseId cause node customersAffected notes version =>
          simp only [omsExec]
          cases Cause.parse cause with
          | none => exact Or.inl rfl
          | some parsed =>
              refine (hinsert _).imp id fun h => ?_
              exact Or.inr (Or.inl ⟨_, _, _, _, _, _, _, rfl, rfl, h⟩)
      | insertCaseMeter caseId dev node =>
          refine Or.inl ?_
          simp only [omsExec, OmsDb.insertCaseMeter]
          repeat' split
          all_goals rfl
      | linkReport caseId reportId =>
          refine Or.inl ?_
          simp only [omsExec, OmsDb.linkReport]
          split <;> rfl
      | insertReport row =>
          refine Or.inl ?_
          simp only [omsExec, OmsDb.insertReport]
          repeat' split
          all_goals rfl
      | _ => exact Or.inl rfl

section Step

variable {s : Watched}

theorem OneOpen.vacant_of_stillFree (h : OneOpen s) {node : String} (hfree : s.StillFree node) :
    Vacant s.db node := by
  obtain ⟨e, he, rfl, hsince⟩ := hfree
  exact (h.free e he).2 hsince

theorem count_insert {rows : List CaseRow} (hrows : ∀ node, rows.countP (openAt node) ≤ 1)
    {row : CaseRow} {node : String} (hrow : row.affectedNodeId = some node)
    (hvacant : ∀ c ∈ rows, ¬ openAt node c = true) (n : String) :
    (rows ++ [row]).countP (openAt n) ≤ 1 := by
  rw [List.countP_append, List.countP_singleton]
  split
  · rename_i hopen
    obtain rfl : node = n := by simpa [hrow] using (openAt_iff.mp hopen).1
    rw [List.countP_eq_zero.mpr hvacant]
  · exact hrows n

/-- An update reopens at most the one case that it is about. -/
theorem count_update {db : OmsDb} (hone : AtMostOneCase db) {caseId : String} {u : CaseSet}
    (now : ℕ) (htimely : Timely (.updateCase caseId u) { s with db := db }) (node : String) :
    (updateRows caseId (u.apply now) db.cases).countP (openAt node) ≤ 1 := by
  rw [updateRows, List.countP_map]
  by_cases hvacant : Vacant db node
  · -- What is open at the node now is the case of the update.
    have hsame : db.cases.countP (fun c => c.caseId = caseId) ≤ 1 := by
      have hcount := List.nodup_iff_count_le_one.mp db.case_key caseId
      rw [List.count, List.countP_map] at hcount
      exact hcount
    refine (List.countP_mono_left fun c hc hopen => ?_).trans hsame
    by_contra hid
    have hid' : ¬ c.caseId = caseId := by simpa using hid
    rw [Function.comp_apply, if_neg hid'] at hopen
    exact hvacant c hc hopen
  -- somebody has a case open at the node, so the update is timely only for that one
  · refine (List.countP_mono_left fun c hc hopen => ?_).trans (hone node)
    rw [Function.comp_apply] at hopen
    split at hopen
    · rename_i hid
      obtain ⟨hnode, hstatus⟩ := openAt_iff.mp hopen
      rw [(u.apply_keeps now c).2.1] at hnode
      rw [CaseSet.apply_status] at hstatus
      refine openAt_iff.mpr ⟨hnode, ?_⟩
      cases hu : u.status with
      | none => rwa [hu] at hstatus
      | some status =>
          rw [hu] at hstatus
          rcases htimely status hu hstatus c hc hid with hopen | hfree
          · exact hopen
          · exact absurd (hfree node hnode) hvacant
    · exact hopen

theorem atMostOne_step (h : OneOpen s) (c : OmsChoice) (q : OmsStmt) (htimely : Timely q s)
    (hneeds : watchRules.needs c q s) : AtMostOneCase (omsSem c q s.db).2 := by
  intro node
  rcases omsSem_cases c q s.db with hsame | ⟨_, _, n, _, _, row, rfl, hnode, hcases⟩ |
    ⟨_, _, n, _, _, _, row, rfl, hnode, hcases⟩ | ⟨caseId, u, rfl, hcases⟩
  · rw [hsame]
    exact h.atMostOne node
  · rw [hcases]
    have hfree := htimely (hneeds _ _ _ _ _ rfl)
    exact count_insert h.atMostOne hnode (h.vacant_of_stillFree hfree) node
  · rw [hcases]
    exact count_insert h.atMostOne hnode htimely node
  · rw [hcases]
    exact count_update (s := s) h.atMostOne c.now htimely node

/-- A vacant node at which nothing is opened stays vacant. -/
theorem vacant_of_not_opened {old new : OmsDb} {node : String} (hold : Vacant old node)
    (hnone : node ∉ newlyOpen old.cases new.cases) : Vacant new node := by
  intro c hc hopen
  obtain ⟨hnode, hstatus⟩ := openAt_iff.mp hopen
  refine hnone (List.mem_filterMap.mpr ⟨c, List.mem_filter.mpr ⟨hc, ?_⟩, hnode⟩)
  have hnew : ¬ ∃ d ∈ old.cases, (d.caseId = c.caseId ∧ d.affectedNodeId = c.affectedNodeId) ∧
      isOpen d.status = true := by
    rintro ⟨d, hd, ⟨-, hdnode⟩, hdopen⟩
    exact hold d hd (openAt_iff.mpr ⟨hdnode.trans hnode, hdopen⟩)
  simpa [hstatus] using hnew

theorem free_step (h : OneOpen s) (c : OmsChoice) (q : OmsStmt) :
    ∀ e ∈ (watchSem c q s).2.found, e.2 ≤ (watchSem c q s).2.opened.length ∧
      (e.1 ∉ (watchSem c q s).2.opened.drop e.2 → Vacant (watchSem c q s).2.db e.1) := by
  have hkept : ∀ e ∈ s.found, e.2 ≤ (watchSem c q s).2.opened.length ∧
      (e.1 ∉ (watchSem c q s).2.opened.drop e.2 → Vacant (watchSem c q s).2.db e.1) := by
    intro e he
    obtain ⟨hlength, hvacant⟩ := h.free e he
    simp only [watchSem, List.length_append, List.drop_append_of_le_length hlength,
      List.mem_append, not_or]
    exact ⟨Nat.le_add_right_of_le hlength,
      fun hnot => vacant_of_not_opened (hvacant hnot.1) hnot.2⟩
  intro e he
  cases hanswer : (omsSem c q s.db).1 with
  | error exc =>
      have hfound : (watchSem c q s).2.found = s.found := by
        simp only [watchSem, hanswer]
        cases q <;> rfl
      exact hkept e (hfound ▸ he)
  | ok answer =>
      cases q with
      | openCaseForNode node =>
          cases answer with
          | some row =>
              have hfound : (watchSem c (.openCaseForNode node) s).2.found = s.found := by
                simp only [watchSem, hanswer, Watched.note]
              exact hkept e (hfound ▸ he)
          | none =>
              -- an answer without a case is noted with how much had been opened before it
              have hfound : (watchSem c (.openCaseForNode node) s).2.found =
                  (node, s.opened.length) :: s.found := by
                simp only [watchSem, hanswer, Watched.note]
              rw [hfound] at he
              rcases List.mem_cons.mp he with rfl | he
              · refine ⟨by simp [watchSem], fun hnone => ?_⟩
                have hvacant : Vacant s.db node := by
                  rw [vacant_iff]
                  rw [omsSem] at hanswer
                  cases hfail : (OmsStmt.openCaseForNode node).failure c with
                  | some exc => simp [hfail] at hanswer
                  | none => simpa [hfail, omsExec] using hanswer
                refine vacant_of_not_opened hvacant fun hmem => hnone ?_
                simpa [watchSem] using hmem
              · exact hkept e he
      | _ => exact hkept e (by simpa [watchSem, Watched.note] using he)

theorem found_sem (c : OmsChoice) (q : OmsStmt) (s : Watched) :
    s.found ⊆ (watchSem c q s).2.found := by
  simp only [watchSem]
  unfold Watched.note
  split
  · exact List.subset_cons_self _ _
  · exact List.Subset.refl _

/-- **One step.** -/
theorem watches_sem (h : OneOpen s) (c : OmsChoice) (q : OmsStmt) (htimely : Timely q s)
    (hneeds : watchRules.needs c q s) : Watches s (watchSem c q s).2 where
  before := h
  after := ⟨atMostOne_step h c q htimely hneeds, free_step h c q⟩
  found := found_sem c q s

end Step

/-! ### The requests -/

/-- Not the insert of a sweep. -/
def NotDetected : OmsStmt → Prop
  | .insertDetected .. => False
  | _ => True

/-- If the insert of a sweep, then for this node. -/
def DetectedAt (node : String) : OmsStmt → Prop
  | .insertDetected _ _ n _ _ => n = node
  | _ => True

theorem watchRules_of_notDetected (c : OmsChoice) (q : OmsStmt) (s : Watched)
    (hq : NotDetected q) : watchRules.needs c q s := by
  rintro caseId cause node customersAffected version rfl
  exact hq.elim

theorem watch_harmless {α : Type} {p : OmsProg α} (hp : p.Issues NotDetected) (s : Watched) :
    wp watchSem watchRules p (fun _ _ => True) s :=
  wp.of_issues_needs watchRules_of_notDetected hp s

section Issues

variable {P : OmsStmt → Prop}

theorem issues_sql {q : OmsStmt} (h : P q) : (sql q).Issues P := (Prog.issues_call q).mpr h

end Issues

theorem meterNode_issues (dev : String) : (meterNode dev).Issues NotDetected := by
  refine (issues_sql trivial).bind fun nodeId => ?_
  cases nodeId with
  | some nodeId => trivial
  | none =>
      refine (issues_sql trivial).bind fun nodeId => ?_
      cases nodeId <;> trivial

theorem sectionRoot_issues (nodeId : String) : (sectionRoot nodeId).Issues NotDetected :=
  (issues_sql trivial).bind fun _ => (issues_sql trivial).bind fun _ => trivial

theorem sectionServicePoints_issues (nodeId : String) :
    (sectionServicePoints nodeId).Issues NotDetected :=
  (issues_sql trivial).bind fun _ => issues_sql trivial

theorem metersOutLoop_issues (timeout : Timeout) (meters : List String) (out : Dict Cause) :
    (metersOutLoop timeout meters out).Issues NotDetected := by
  induction meters generalizing out with
  | nil => trivial
  | cons dev rest ih =>
      refine (issues_sql trivial).bind fun latest => ?_
      cases latest with
      | none => exact ih out
      | some latest =>
          dsimp only
          cases outageSignal timeout latest with
          | some cause => exact ih _
          | none => exact ih out

theorem metersOut_issues (timeout : Timeout) : (metersOut timeout).Issues NotDetected :=
  (issues_sql trivial).bind fun meters => metersOutLoop_issues timeout meters []

theorem namedNode_issues (r : ReportRow) : (namedNode r).Issues NotDetected := by
  unfold namedNode
  split
  · trivial
  · split
    · exact meterNode_issues _
    · trivial

theorem customerNode_issues (customerId : String) :
    (customerNode customerId).Issues NotDetected := by
  refine (issues_sql trivial).bind fun nodeId => ?_
  cases nodeId <;> trivial

theorem reportNode_issues (r : ReportRow) : (reportNode r).Issues NotDetected := by
  refine (namedNode_issues r).bind fun mnode => ?_
  split
  · exact customerNode_issues _
  · trivial

theorem rootOr_issues (mnode : Option String) (key : String) :
    (rootOr mnode key).Issues NotDetected := by
  unfold rootOr
  split
  · exact sectionRoot_issues _
  · trivial

theorem groupMeters_issues (out : List (String × Cause)) (groups : Dict Group) :
    (groupMeters out groups).Issues NotDetected := by
  induction out generalizing groups with
  | nil => trivial
  | cons signal rest ih =>
      exact (meterNode_issues _).bind fun _ => (rootOr_issues _ _).bind fun _ => ih _

theorem groupReports_issues (reports : List ReportRow) (groups : Dict Group) :
    (groupReports reports groups).Issues NotDetected := by
  induction reports generalizing groups with
  | nil => trivial
  | cons r rest ih =>
      exact (reportNode_issues r).bind fun _ => (rootOr_issues _ _).bind fun _ => ih _

theorem attachMeters_issues (caseId : String) (meters : Dict (Option String)) :
    (attachMeters caseId meters).Issues NotDetected := by
  induction meters with
  | nil => trivial
  | cons m rest ih => exact (issues_sql trivial).bind fun _ => ih

theorem reportRoot_issues (r : ReportRow) : (reportRoot r).Issues NotDetected := by
  refine (reportNode_issues r).bind fun mnode => ?_
  split
  · exact (sectionRoot_issues _).bind fun _ => trivial
  · trivial

theorem coveringCase_issues (root : Option String) : (coveringCase root).Issues NotDetected := by
  unfold coveringCase
  split
  · exact issues_sql trivial
  · trivial

theorem linkToCase_issues (r : ReportRow) : (linkToCase r).Issues NotDetected := by
  refine (reportRoot_issues r).bind fun root => (coveringCase_issues root).bind fun case => ?_
  cases case with
  | none => trivial
  | some c =>
      refine (issues_sql trivial).bind fun _ => ?_
      unfold corroborate
      split
      · exact issues_sql trivial
      · trivial

theorem linkReports_issues (reports : List ReportRow) :
    (linkReports reports).Issues NotDetected := by
  induction reports with
  | nil => trivial
  | cons r rest ih => exact (linkToCase_issues r).bind fun _ => ih

theorem meterIsBack_issues (timeout : Timeout) (dev : String) :
    (meterIsBack timeout dev).Issues NotDetected := by
  refine (issues_sql trivial).bind fun latest => ?_
  cases latest <;> trivial

theorem allBack_issues (timeout : Timeout) (meters : List CaseMeter) :
    (allBack timeout meters).Issues NotDetected := by
  induction meters with
  | nil => trivial
  | cons m rest ih =>
      refine (meterIsBack_issues timeout _).bind fun back => ?_
      split
      · exact ih
      · trivial

theorem metersBack_issues (timeout : Timeout) (meters : List CaseMeter) :
    (metersBack timeout meters).Issues NotDetected := by
  unfold metersBack
  split
  · trivial
  · exact allBack_issues timeout meters

theorem restoreCases_issues (timeout : Timeout) (cases : List CaseRow) (restored : List String) :
    (restoreCases timeout cases restored).Issues NotDetected := by
  induction cases generalizing restored with
  | nil => trivial
  | cons c rest ih =>
      refine (issues_sql trivial).bind fun meters =>
        (metersBack_issues timeout meters).bind fun back => ?_
      split
      · exact (issues_sql trivial).bind fun _ => ih _
      · exact ih _

theorem nodeName_issues (nodeId : Option String) : (nodeName nodeId).Issues NotDetected := by
  unfold nodeName
  split
  · trivial
  · refine (issues_sql trivial).bind fun row => ?_
    cases row <;> trivial

theorem caseDetail_issues (case : Option CaseRow) : (caseDetail case).Issues NotDetected := by
  cases case with
  | none => trivial
  | some case =>
      exact (nodeName_issues _).bind fun _ => (issues_sql trivial).bind fun _ =>
        (issues_sql trivial).bind fun _ => trivial

theorem createCase_issues (body : ManualCase) : (createCase body).Issues NotDetected := by
  refine (issues_sql trivial).bind fun known => (Prog.issues_raiseIf _ _).bind fun _ => ?_
  refine (issues_sql trivial).bind fun caseId => (sectionServicePoints_issues _).bind fun sps => ?_
  refine (issues_sql trivial).bind fun version => (issues_sql trivial).bind fun _ => ?_
  exact (issues_sql trivial).bind fun _ => (issues_sql trivial).bind fun case =>
    caseDetail_issues case

theorem newStatus_issues (body : CaseUpdate) : body.newStatus.Issues NotDetected := by
  unfold CaseUpdate.newStatus
  split
  · trivial
  · split <;> trivial

theorem patchCase_issues (caseId : String) (status : Option OutageStatus)
    (notes : Option String) : (patchCase caseId status notes).Issues NotDetected := by
  unfold patchCase
  split
  · exact issues_sql trivial
  · trivial

theorem updateCase_issues (caseId : String) (body : CaseUpdate) :
    (updateCase caseId body).Issues NotDetected :=
  (issues_sql trivial).bind fun _ => (Prog.issues_raiseIf _ _).bind fun _ =>
    (newStatus_issues body).bind fun _ => (patchCase_issues caseId _ _).bind fun _ =>
      (issues_sql trivial).bind fun case => caseDetail_issues case

/-! ### The sweep -/

/-- A query that answers none has found the node to be free. -/
theorem found_of_answer {c : OmsChoice} {s : Watched} {node : String}
    (h : (watchSem c (.openCaseForNode node) s).1 = .ok none) :
    (watchSem c (.openCaseForNode node) s).2.Found node := by
  simp only [watchSem] at h ⊢
  rw [h]
  exact ⟨_, List.mem_cons_self, rfl⟩

theorem watch_refreshOrOpen (node : String) (cause : Cause) (customersAffected : ℕ)
    (s : Watched) :
    wp watchSem watchRules (refreshOrOpen node cause customersAffected) (fun _ _ => True) s := by
  unfold refreshOrOpen
  rw [wp_bind]
  refine (wp_call _ _ _ _ _).mpr fun s₁ _ c _ =>
    ⟨watchRules_of_notDetected c _ s₁ trivial, ?_⟩
  cases hanswer : (watchSem c (.openCaseForNode node) s₁).1 with
  | error e => trivial
  | ok existing =>
      cases existing with
      | some existing =>
          exact watch_harmless ((issues_sql trivial).bind fun _ => Prog.issues_pure _) _
      | none =>
          have hinsert : (do
              let caseId ← sql .uuid4
              let version ← sql .currentModelVersion
              sql (.insertDetected caseId cause node customersAffected version)
              pure (caseId, true) : OmsProg (String × Bool)).Issues (DetectedAt node) :=
            (issues_sql trivial).bind fun _ => (issues_sql trivial).bind fun _ =>
              (issues_sql (by rfl)).bind fun _ => Prog.issues_pure _
          refine wp.of_issues_kept (J := fun s => s.Found node)
            (fun a b hab h => h.mono hab.found) (fun c q s h => h.mono (found_sem c q s))
            ?_ hinsert (found_of_answer hanswer)
          rintro c q s hq hs caseId cause n customersAffected version rfl
          exact hq ▸ hs

theorem watch_upsertCase (node : String) (g : Group) (s : Watched) :
    wp watchSem watchRules (upsertCase node g) (fun _ _ => True) s := by
  refine wp.bind (watch_harmless (sectionServicePoints_issues node) s) (fun sps s₁ _ => ?_)
    fun _ _ _ => trivial
  -- only the insert needs the answer of the query; what follows opens nothing
  refine wp.bind (watch_refreshOrOpen node _ _ s₁) (fun case s₂ _ => ?_) fun _ _ _ => trivial
  exact watch_harmless ((attachMeters_issues _ _).bind fun _ =>
    (issues_sql trivial).bind fun _ => Prog.issues_pure _) s₂

theorem watch_upsertGroups (groups : Dict Group) (done : Upserted) (s : Watched) :
    wp watchSem watchRules (upsertGroups groups done) (fun _ _ => True) s := by
  induction groups generalizing done s with
  | nil => trivial
  | cons entry rest ih =>
      obtain ⟨node, g⟩ := entry
      unfold upsertGroups
      split
      · exact ih done s
      · refine wp.bind (watch_upsertCase node g s) (fun case s₁ _ => ?_) fun _ _ _ => trivial
        obtain ⟨case, created⟩ := case
        cases case with
        | none => trivial
        | some c => exact ih _ s₁

theorem watch_runDetection (timeout : Timeout) (s : Watched) :
    wp watchSem watchRules (runDetection timeout) (fun _ _ => True) s := by
  unfold runDetection
  refine wp.bind (watch_harmless (metersOut_issues timeout) s) (fun out s₁ _ => ?_)
    fun _ _ _ => trivial
  refine wp.bind (watch_harmless (groupMeters_issues out []) s₁) (fun groups s₂ _ => ?_)
    fun _ _ _ => trivial
  refine wp.bind (watch_harmless (issues_sql (by trivial)) s₂) (fun reports s₃ _ => ?_)
    fun _ _ _ => trivial
  refine wp.bind (watch_harmless (groupReports_issues reports groups) s₃) (fun groups s₄ _ => ?_)
    fun _ _ _ => trivial
  refine wp.bind (watch_upsertGroups groups {} s₄) (fun upserted s₅ _ => ?_) fun _ _ _ => trivial
  exact watch_harmless ((linkReports_issues reports).bind fun _ => (issues_sql trivial).bind
    fun _ => (restoreCases_issues timeout _ _).bind fun _ => (metersOut_issues timeout).bind
      fun _ => Prog.issues_pure _) s₅

theorem watch_serve (timeout : Timeout) (r : OmsRequest) (s : Watched) :
    wp watchSem watchRules (serveOms timeout r) (fun _ _ => True) s := by
  cases r with
  | detect =>
      exact wp.bind (watch_runDetection timeout s) (fun _ _ _ => trivial) fun _ _ _ => trivial
  | call report =>
      have hcall : wp watchSem watchRules (callHandler timeout report) (fun _ _ => True) s := by
        refine wp.bind (watch_harmless (issues_sql (by trivial)) s) (fun reportId s₁ _ => ?_)
          fun _ _ _ => trivial
        refine wp.bind (watch_harmless (issues_sql (by trivial)) s₁) (fun _ s₂ _ => ?_)
          fun _ _ _ => trivial
        refine wp.bind (watch_runDetection timeout s₂) (fun detection s₃ _ => ?_)
          fun _ _ _ => trivial
        exact watch_harmless ((issues_sql trivial).bind fun _ => Prog.issues_pure _) s₃
      exact wp.bind hcall (fun _ _ _ => trivial) fun _ _ _ => trivial
  | createCase body =>
      exact watch_harmless ((createCase_issues body).bind fun _ => Prog.issues_pure _) s
  | updateCase caseId body =>
      exact watch_harmless ((updateCase_issues caseId body).bind fun _ => Prog.issues_pure _) s

/-! ### Whole runs -/

/-- What happens around the requests: the network model, the devices and their
telemetry change, as far as the foreign keys allow. -/
def surroundOms (m : Model) (s : Watched) : Watched :=
  if h : (∀ c ∈ s.db.cases, refers m.nodeIds c.affectedNodeId) ∧
      ∀ r ∈ s.db.reports, m.Knows r then
    { s with db := { s.db with model := m, case_node := h.1, report_refs := h.2 } }
  else s

theorem watches_surround (m : Model) {s : Watched} (h : OneOpen s) :
    Watches s (surroundOms m s) := by
  unfold surroundOms
  split
  · exact ⟨h, ⟨h.atMostOne, h.free⟩, List.Subset.refl _⟩
  · exact .refl h

theorem watch_cooperative (timeout : Timeout) :
    Cooperative watchSem (serveOms timeout) surroundOms watchRules where
  trans _ _ _ := Watches.trans
  self _ _ hab := .refl hab.after
  stmt c q _ hs htimely hneeds := watches_sem hs.after c q htimely hneeds
  env m _ hs := watches_surround m hs.after
  serve r s _ := watch_serve timeout r s

/-- **One open case.** Let sweeps, calls, manual cases and changes of status run
concurrently, with the network model and the telemetry changing at any time.
When every step is timely, there is at every moment at most one open case for a
node. -/
theorem one_open_case (timeout : Timeout) (db : OmsDb) (hstart : AtMostOneCase db)
    (schedule : List (Event OmsChoice OmsRequest Model))
    (hsteps : Config.AllSteps watchSem (serveOms timeout) surroundOms (fun _ => Timely)
      ⟨{ db := db }, []⟩ schedule) (n : ℕ) :
    AtMostOneCase (Config.run watchSem (serveOms timeout) surroundOms ⟨{ db := db }, []⟩
      (schedule.take n)).state.db := by
  have hnone : OneOpen { db := db } := ⟨hstart, fun e he => absurd he List.not_mem_nil⟩
  have hrun := (watch_cooperative timeout).run (schedule.take n)
    ⟨.refl hnone, fun _ hp => absurd hp List.not_mem_nil⟩ (hsteps.take _ _ _ n)
  exact hrun.1.after.atMostOne

abbrev OmsEvent := Event OmsChoice OmsRequest Model

/-- The `i`-th request issues its next `n` statements; identifiers are drawn as
`uuid`. -/
def omsTurns (i : ℕ) (uuid : String) (n : ℕ) : List OmsEvent :=
  List.replicate n (.act i { uuid := uuid })

/-- A sweep opens a case, a call is linked to it, and somebody closes it; then a
manual case is opened. -/
def calmDay : List OmsEvent :=
  .spawn .detect :: omsTurns 0 "c1" 30 ++
    .spawn (.call { nodeId := some "ND-METER001" }) :: omsTurns 1 "r1" 40 ++
    .spawn (.updateCase "c1" { status := some "closed" }) :: omsTurns 2 "" 10 ++
    .spawn (.createCase { affectedNodeId := "BUS-01" }) :: omsTurns 3 "c2" 20

theorem one_open_case_on_calm_day :
    AtMostOneCase (Config.run watchSem (serveOms 180) surroundOms
      ⟨{ db := pilotOms (gasping ["METER001"]) [] [] [] }, []⟩ (calmDay.take 90)).state.db := by
  refine one_open_case 180 _ ?_ calmDay (by decide +kernel) 90
  exact fun _ => Nat.zero_le 1

/-- Two manual cases for one node are open together; so are a manual case and a
closed one that is set to `CONFIRMED`, and the cases of two sweeps that have both
asked before either inserts. -/
theorem open_cases_pile_up :
    (¬ AtMostOneCase (
      let schedule := .spawn (.createCase { affectedNodeId := "BUS-01" }) :: omsTurns 0 "c1" 20 ++
        .spawn (.createCase { affectedNodeId := "BUS-01" }) :: omsTurns 1 "c2" 20
      (Config.run watchSem (serveOms 180) surroundOms
        ⟨{ db := pilotOms (gasping []) [] [] [] }, []⟩ schedule).state.db)) ∧
    (¬ AtMostOneCase (
      let schedule := .spawn (.createCase { affectedNodeId := "BUS-01" }) :: omsTurns 0 "c1" 20 ++
        .spawn (.updateCase "c0" { status := some "confirmed" }) :: omsTurns 1 "" 20
      (Config.run watchSem (serveOms 180) surroundOms
        ⟨{ db := pilotOms (gasping []) [⟨"c0", .CLOSED, .manual, some "BUS-01", 1, 0, none, none,
          some 1, none, none⟩] [] [] }, []⟩ schedule).state.db)) ∧
    ¬ AtMostOneCase (
      let schedule := .spawn .detect :: .spawn .detect :: omsTurns 0 "c1" 12 ++
        omsTurns 1 "c2" 30 ++ omsTurns 0 "c1" 30
      (Config.run watchSem (serveOms 180) surroundOms
        ⟨{ db := pilotOms (gasping ["METER001"]) [] [] [] }, []⟩ schedule).state.db) := by
  refine ⟨fun h => ?_, fun h => ?_, fun h => ?_⟩
  · exact absurd (h "BUS-01") (by decide +kernel)
  · exact absurd (h "BUS-01") (by decide +kernel)
  · exact absurd (h "BUS-01") (by decide +kernel)

end DiepLab.Oms
