import DiepLab.Oms.Upsert

/-!
The second and the third phase of a sweep.

`linkReports` links what has an open case (`Links`), `restoreCases` closes the
cases whose meters are all back (`Restores`). What a phase finds already done it
leaves as it is.
-/

namespace DiepLab.Oms

open StatementProgram

section Phases

variable (w : Moment)

/-! ### The second phase -/

/-- An update of the open case of a node. -/
theorem view_updateCase {db : OmsDb} {root : String} {c : CaseRow}
    (h : db.openCaseForNode root = some c) {now : ℕ} {u : CaseSet}
    (hopen : isOpen (u.apply now c).status = true) (node : String) :
    (db.updateCase c.caseId now u).view node =
      if node = root then { db.view root with case := some (u.apply now c) }
      else db.view node := by
  obtain ⟨hc, hat⟩ := OmsDb.openCaseForNode_spec h
  obtain ⟨hroot, hwas⟩ := openAt_iff.mp hat
  have honly : ∀ d ∈ db.cases, d.caseId = c.caseId → d = c :=
    fun d hd hid => OmsDb.eq_of_caseId hd hc hid
  have hkeep : ∀ d ∈ db.cases, d.caseId = c.caseId →
      isOpen (u.apply now d).status = isOpen d.status := by
    intro d hd hid
    rw [honly d hd hid, hopen, hwas]
  have hcase := OmsDb.openCaseForNode_updateCase hkeep node
  have hdevices : ∀ id, (db.updateCase c.caseId now u).devicesOf id = db.devicesOf id :=
    fun _ => rfl
  by_cases hnode : node = root
  · subst hnode
    rw [h, Option.map_some, if_pos rfl] at hcase
    rw [if_pos rfl, OmsDb.view, OmsDb.view, OmsDb.attachedAt_of_open hcase,
      OmsDb.attachedAt_of_open h, hcase, h, Option.map_some, Option.map_some,
      (u.apply_keeps now c).1, OmsDb.openBut, OmsDb.openBut, List.filter_filter,
      List.filter_filter]
    congr 1
    refine congrArg (List.map _) (filter_updateRows fun d hd hid => ?_)
    simp [honly d hd hid, (u.apply_keeps now c).1]
  · have hsame : (db.openCaseForNode node).map
        (fun d => if d.caseId = c.caseId then u.apply now d else d) = db.openCaseForNode node := by
      cases hd : db.openCaseForNode node with
      | none => rfl
      | some d =>
          obtain ⟨hdmem, hdat⟩ := OmsDb.openCaseForNode_spec hd
          rw [Option.map_some, if_neg]
          intro hid
          have hdroot := (openAt_iff.mp hdat).1
          rw [honly d hdmem hid, hroot] at hdroot
          injection hdroot with hdroot
          exact hnode hdroot.symm
    rw [hsame] at hcase
    rw [if_neg hnode, OmsDb.view, OmsDb.view, OmsDb.attachedAt, OmsDb.attachedAt, hcase,
      OmsDb.openBut, OmsDb.openBut]
    congr 1
    refine congrArg (List.map _) (congrArg _ (filter_updateRows fun d hd hid => ?_))
    have hnot : ¬ some root = some node := by
      rw [Option.some.injEq]
      exact Ne.symm hnode
    rw [honly d hd hid]
    simp [openAt, (u.apply_keeps now c).2.1, hroot, hnot]

namespace OmsDb

/-- The case that a report is linked to. -/
def target (db : OmsDb) (r : ReportRow) : Option CaseRow :=
  (given (db.model.reportRoot r)).bind db.openCaseForNode

end OmsDb

/-- A report once it is linked. -/
def ReportRow.linked (r : ReportRow) (caseId : String) : ReportRow :=
  { r with status := .LINKED, caseId := some caseId }

def ReportRow.linkedTo (r : ReportRow) : Option String → ReportRow
  | some caseId => r.linked caseId
  | none => r

/-- What becomes of a row while reports are linked, each to its target. -/
def relink (target : ReportRow → Option String) (reports : List ReportRow) (x : ReportRow) :
    ReportRow :=
  reports.foldl (fun x r => if x.reportId = r.reportId then x.linkedTo (target r) else x) x

/-- The same case, corroborated or not. -/
structure Corroborated (c c' : CaseRow) : Prop where
  caseId : c'.caseId = c.caseId
  customersAffected : c'.customersAffected = c.customersAffected
  mixed : c.cause = .mixed → c'.cause = .mixed

/-- What the second phase does. -/
structure Links (reports : List ReportRow) (db db' : OmsDb) : Prop where
  model : db'.model = db.model
  caseMeters : db'.caseMeters = db.caseMeters
  case : ∀ node, Option.Rel Corroborated (db.openCaseForNode node) (db'.openCaseForNode node)
  untouched : ∀ node, (∀ r ∈ reports, given (db.model.reportRoot r) ≠ some node) →
    db'.openCaseForNode node = db.openCaseForNode node
  older : ∀ node, (db'.view node).older = (db.view node).older
  reports : db'.reports =
    db.reports.map (relink (fun r => (db.target r).map CaseRow.caseId) reports)

theorem Corroborated.refl (c : CaseRow) : Corroborated c c := ⟨rfl, rfl, id⟩

theorem Corroborated.trans {a b c : CaseRow} (hab : Corroborated a b) (hbc : Corroborated b c) :
    Corroborated a c :=
  ⟨hbc.caseId.trans hab.caseId, hbc.customersAffected.trans hab.customersAffected,
    fun h => hbc.mixed (hab.mixed h)⟩

theorem rel_refl : ∀ o : Option CaseRow, Option.Rel Corroborated o o
  | none => .none
  | some c => .some (.refl c)

theorem rel_trans {a b c : Option CaseRow} (hab : Option.Rel Corroborated a b)
    (hbc : Option.Rel Corroborated b c) : Option.Rel Corroborated a c := by
  cases hab with
  | none => exact hbc
  | some h =>
      cases hbc with
      | some h' => exact .some (h.trans h')

/-- The open case of a section stays open while reports are linked to it. -/
theorem Links.case_some {reports : List ReportRow} {db db' : OmsDb} (h : Links reports db db')
    {node : String} {c : CaseRow} (hc : db.openCaseForNode node = some c) :
    ∃ c', db'.openCaseForNode node = some c' ∧ Corroborated c c' := by
  have hrel := h.case node
  rw [hc] at hrel
  generalize db'.openCaseForNode node = found at hrel ⊢
  cases hrel with
  | some hcorr => exact ⟨_, rfl, hcorr⟩

theorem Links.case_none {reports : List ReportRow} {db db' : OmsDb} (h : Links reports db db')
    {node : String} (hnone : db.openCaseForNode node = none) :
    db'.openCaseForNode node = none := by
  have hrel := h.case node
  rw [hnone] at hrel
  generalize db'.openCaseForNode node = found at hrel ⊢
  cases hrel
  rfl

theorem rel_caseId {a b : Option CaseRow} (h : Option.Rel Corroborated a b) :
    b.map CaseRow.caseId = a.map CaseRow.caseId := by
  cases h with
  | none => rfl
  | some h => exact congrArg some h.caseId

theorem Links.refl (db : OmsDb) : Links [] db db where
  model := rfl
  caseMeters := rfl
  case _ := rel_refl _
  untouched _ _ := rfl
  older _ := rfl
  reports := (List.map_id _).symm

/-- Reports keep their targets. -/
theorem Links.target_eq {reports : List ReportRow} {db db' : OmsDb} (h : Links reports db db')
    (r : ReportRow) : (db'.target r).map CaseRow.caseId = (db.target r).map CaseRow.caseId := by
  rw [OmsDb.target, OmsDb.target, h.model]
  cases given (db.model.reportRoot r) with
  | none => rfl
  | some root => exact rel_caseId (h.case root)

theorem Links.append {rs rs' : List ReportRow} {a b c : OmsDb} (hab : Links rs a b)
    (hbc : Links rs' b c) : Links (rs ++ rs') a c where
  model := hbc.model.trans hab.model
  caseMeters := hbc.caseMeters.trans hab.caseMeters
  case node := rel_trans (hab.case node) (hbc.case node)
  untouched node h := by
    obtain ⟨h₁, h₂⟩ := List.forall_mem_append.mp h
    rw [hbc.untouched node (by rw [hab.model]; exact h₂), hab.untouched node h₁]
  older node := (hbc.older node).trans (hab.older node)
  reports := by
    have htarget : (fun r => (b.target r).map CaseRow.caseId) =
        fun r => (a.target r).map CaseRow.caseId := funext hab.target_eq
    rw [hbc.reports, hab.reports, List.map_map, htarget]
    refine List.map_congr_left fun x _ => ?_
    rw [Function.comp_apply, relink, relink, relink, List.foldl_append]

theorem view_congr {a b : OmsDb} (hcases : b.cases = a.cases)
    (hmeters : b.caseMeters = a.caseMeters)
    (node : String) : b.view node = a.view node := by
  have hcase : b.openCaseForNode node = a.openCaseForNode node := by
    rw [OmsDb.openCaseForNode, OmsDb.openCaseForNode, hcases]
  have hdevices : ∀ id, b.devicesOf id = a.devicesOf id := OmsDb.devicesOf_congr hmeters
  simp only [OmsDb.view, OmsDb.attachedAt, OmsDb.openBut, hcase, hdevices, hcases]

theorem linkReport_ok {db : OmsDb} {caseId : String} (h : caseId ∈ db.caseIds)
    (reportId : String) :
    ∃ db', db.linkReport caseId reportId = (.ok (), db') ∧ db'.model = db.model ∧
      db'.cases = db.cases ∧ db'.caseMeters = db.caseMeters ∧
      db'.reports = linkRows caseId reportId db.reports := by
  unfold OmsDb.linkReport
  rw [if_pos h]
  exact ⟨_, rfl, rfl, rfl, rfl, rfl⟩

theorem corroborated_confirm (now : ℕ) (c : CaseRow) :
    Corroborated c (CaseSet.confirm.apply now c) :=
  ⟨rfl, rfl, fun h => by simp [CaseSet.apply, h]⟩

/-- One report. -/
theorem run_linkToCase (db : OmsDb) (r : ReportRow) :
    ∃ db', (linkToCase r).run (alone w) db = (.ok (), db') ∧ Links [r] db db' := by
  have hcovering : (coveringCase (db.model.reportRoot r)).run (alone w) db =
      (.ok (db.target r), db) := by
    rw [coveringCase, OmsDb.target]
    cases given (db.model.reportRoot r) with
    | none => rfl
    | some root =>
        rw [Prog.run_call, alone_eq]
        rfl
  rw [linkToCase, Prog.run_bind, run_reportRoot]
  dsimp only
  rw [Prog.run_bind, hcovering]
  dsimp only
  cases htarget : db.target r with
  | none =>
      refine ⟨db, rfl, rfl, rfl, fun _ => rel_refl _, fun _ _ => rfl, fun _ => rfl, ?_⟩
      refine ((List.map_congr_left fun x _ => ?_).trans (List.map_id _)).symm
      simp [relink, htarget, ReportRow.linkedTo]
  | some c =>
      obtain ⟨root, hroot, hopen⟩ := Option.bind_eq_some_iff.mp htarget
      obtain ⟨db₁, hlink, hmodel, hcases, hmeters, hreports⟩ :=
        linkReport_ok (OmsDb.mem_caseIds (OmsDb.openCaseForNode_spec hopen).1) r.reportId
      have hview : ∀ node, db₁.view node = db.view node := view_congr hcases hmeters
      have hcase : ∀ node, db₁.openCaseForNode node = db.openCaseForNode node :=
        fun node => congrArg SectionView.case (hview node)
      have hrows : linkRows c.caseId r.reportId db.reports =
          db.reports.map (relink (fun r => (db.target r).map CaseRow.caseId) [r]) := by
        refine List.map_congr_left fun x _ => ?_
        simp only [relink, List.foldl_cons, List.foldl_nil, htarget, Option.map_some]
        rfl
      dsimp only
      rw [Prog.run_bind, Prog.run_call, alone_eq]
      simp only [omsExec, hlink]
      unfold corroborate
      split
      · -- The corroborated case is confirmed.
        rw [Prog.run_call, alone_eq]
        have hconfirm : ∀ node, (db₁.updateCase c.caseId w.now .confirm).view node = _ :=
          view_updateCase ((hcase root).trans hopen) rfl
        refine ⟨_, rfl, hmodel, hmeters, fun node => ?_, fun node hnode => ?_, fun node => ?_,
          hreports.trans hrows⟩
        · have hnew := congrArg SectionView.case (hconfirm node)
          simp only [OmsDb.view] at hnew
          rw [hnew]
          split
          · rename_i heq
            rw [heq, hopen]
            exact .some (corroborated_confirm w.now c)
          · rw [hcase]
            exact rel_refl _
        · have hne : node ≠ root := fun h => hnode r (List.mem_singleton_self r) (h ▸ hroot)
          have hnew := congrArg SectionView.case (hconfirm node)
          rw [if_neg hne] at hnew
          exact hnew.trans (hcase node)
        · have hnew := congrArg SectionView.older (hconfirm node)
          rw [hnew]
          split
          · rename_i heq
            rw [heq, hview]
          · rw [hview]
      · exact ⟨db₁, rfl, hmodel, hmeters, fun node => hcase node ▸ rel_refl _,
          fun node _ => hcase node, fun node => congrArg SectionView.older (hview node),
          hreports.trans hrows⟩

theorem run_linkReports (db : OmsDb) (reports : List ReportRow) :
    ∃ db', (linkReports reports).run (alone w) db = (.ok (), db') ∧ Links reports db db' := by
  induction reports generalizing db with
  | nil => exact ⟨db, rfl, .refl db⟩
  | cons r reports ih =>
      obtain ⟨db₁, hfirst, h₁⟩ := run_linkToCase w db r
      obtain ⟨db₂, hrest, h₂⟩ := ih db₁
      refine ⟨db₂, ?_, h₁.append h₂⟩
      rw [linkReports, Prog.run_bind, hfirst]
      exact hrest

/-- Reports without a target change nothing. -/
theorem run_linkReports_none {db : OmsDb} {reports : List ReportRow}
    (h : ∀ r ∈ reports, db.target r = none) :
    (linkReports reports).run (alone w) db = (.ok (), db) := by
  induction reports with
  | nil => rfl
  | cons r reports ih =>
      obtain ⟨hr, hrest⟩ := List.forall_mem_cons.mp h
      have hfirst : (linkToCase r).run (alone w) db = (.ok (), db) := by
        rw [linkToCase, Prog.run_bind, run_reportRoot]
        dsimp only
        rw [OmsDb.target] at hr
        rw [coveringCase, Prog.run_bind]
        cases hroot : given (db.model.reportRoot r) with
        | none => rfl
        | some root =>
            rw [hroot, Option.bind_some] at hr
            simp only [Prog.run_call, alone_eq, omsExec, hr, Prog.run_pure]
      rw [linkReports, Prog.run_bind, hfirst]
      exact ih hrest

/-! ### The third phase -/

/-- `meters and all(...)`. -/
def Model.areBack (m : Model) (timeout : Timeout) (devs : List String) : Bool :=
  !devs.isEmpty && devs.all (m.isBack timeout)

variable (timeout : Timeout)

theorem run_metersBack (db : OmsDb) (meters : List CaseMeter) :
    (metersBack timeout meters).run (alone w) db =
      (.ok (db.model.areBack timeout (meters.map CaseMeter.meterDeviceId)), db) := by
  have hall : ∀ meters, (allBack timeout meters).run (alone w) db =
      (.ok ((meters.map CaseMeter.meterDeviceId).all (db.model.isBack timeout)), db) := by
    intro meters
    induction meters with
    | nil => rfl
    | cons m meters ih =>
        rw [allBack, Prog.run_bind, run_meterIsBack]
        dsimp only
        rw [List.map_cons, List.all_cons]
        cases db.model.isBack timeout m.meterDeviceId with
        | false => rfl
        | true => exact ih
  rw [metersBack, Model.areBack]
  cases meters with
  | nil => rfl
  | cons m meters =>
      rw [if_neg (List.cons_ne_nil _ _), hall]
      rfl

/-- What the third phase does. -/
structure Restores (timeout : Timeout) (db db' : OmsDb) : Prop where
  model : db'.model = db.model
  caseMeters : db'.caseMeters = db.caseMeters
  reports : db'.reports = db.reports
  opens : ∀ node, db'.cases.filter (openAt node) =
    (db.cases.filter (openAt node)).filter fun c =>
      !db.model.areBack timeout (db.devicesOf c.caseId)
  ids : db'.caseIds = db.caseIds
  open_of : ∀ c ∈ db'.cases, isOpen c.status = true →
    c ∈ db.cases ∧ db.model.areBack timeout (db.devicesOf c.caseId) = false
  idle : (∀ c ∈ db.cases, isOpen c.status = true →
    db.model.areBack timeout (db.devicesOf c.caseId) = false) → db' = db

/-- The cases of a list that are to be restored. -/
def OmsDb.backAmong (db : OmsDb) (timeout : Timeout) (cases : List CaseRow) : List String :=
  (cases.filter fun c => db.model.areBack timeout (db.devicesOf c.caseId)).map CaseRow.caseId

theorem run_restoreCases (db : OmsDb) (cases : List CaseRow) (restored : List String) :
    ∃ restored' db', (restoreCases timeout cases restored).run (alone w) db =
        (.ok restored', db') ∧ db'.model = db.model ∧ db'.caseMeters = db.caseMeters ∧
      db'.reports = db.reports ∧
      db'.cases = db.cases.map (fun c =>
        if c.caseId ∈ db.backAmong timeout cases then CaseSet.restore.apply w.now c else c) ∧
      (db.backAmong timeout cases = [] → db' = db) := by
  induction cases generalizing db restored with
  | nil =>
      refine ⟨restored, db, rfl, rfl, rfl, rfl, ?_, fun _ => rfl⟩
      exact (List.map_id _).symm
  | cons c cases ih =>
      rw [restoreCases, Prog.run_bind, Prog.run_call, alone_eq]
      simp only [omsExec]
      rw [Prog.run_bind, run_metersBack]
      dsimp only
      have hback : db.model.areBack timeout ((db.metersOf c.caseId).map CaseMeter.meterDeviceId) =
          db.model.areBack timeout (db.devicesOf c.caseId) := rfl
      rw [hback, OmsDb.backAmong, List.filter_cons]
      cases db.model.areBack timeout (db.devicesOf c.caseId) with
      | false => exact ih db restored
      | true =>
          rw [if_pos rfl, if_pos rfl, Prog.run_bind, Prog.run_call, alone_eq]
          simp only [omsExec]
          obtain ⟨restored', db', hrun, hmodel, hmeters, hreports, hcases, -⟩ :=
            ih (db.updateCase c.caseId w.now .restore) (restored ++ [c.caseId])
          refine ⟨restored', db', hrun, hmodel, hmeters, hreports, ?_, fun h => ?_⟩
          · rw [hcases]
            simp only [OmsDb.updateCase, updateRows, List.map_map]
            refine List.map_congr_left fun d _ => ?_
            have hsame : (db.updateCase c.caseId w.now .restore).backAmong timeout cases =
                db.backAmong timeout cases := rfl
            simp only [Function.comp_apply, List.map_cons, List.mem_cons]
            by_cases hid : d.caseId = c.caseId
            · simp only [hid, true_or, if_true]
              split <;> rfl
            · simp only [hid, false_or]
              rfl
          · cases h

theorem mem_backAmong {db : OmsDb} {c : CaseRow} (hc : c ∈ db.cases) :
    c.caseId ∈ db.backAmong timeout (db.cases.filter fun c => isOpen c.status) ↔
      isOpen c.status = true ∧ db.model.areBack timeout (db.devicesOf c.caseId) = true := by
  rw [OmsDb.backAmong, List.mem_map]
  constructor
  · rintro ⟨d, hd, hid⟩
    obtain ⟨hd, hback⟩ := List.mem_filter.mp hd
    obtain ⟨hd, hopen⟩ := List.mem_filter.mp hd
    obtain rfl := OmsDb.eq_of_caseId hd hc hid
    exact ⟨hopen, hback⟩
  · rintro ⟨hopen, hback⟩
    exact ⟨c, List.mem_filter.mpr ⟨List.mem_filter.mpr ⟨hc, hopen⟩, hback⟩, rfl⟩

theorem run_restoreOpen (db : OmsDb) (restored : List String) :
    ∃ restored' db', (restoreCases timeout (db.cases.filter fun c => isOpen c.status)
        restored).run (alone w) db = (.ok restored', db') ∧ Restores timeout db db' := by
  obtain ⟨restored', db', hrun, hmodel, hmeters, hreports, hcases, hidle⟩ :=
    run_restoreCases w timeout db (db.cases.filter fun c => isOpen c.status) restored
  refine ⟨restored', db', hrun, hmodel, hmeters, hreports, fun node => ?_, ?_,
    fun c' hc' hopen => ?_,
    fun h => hidle ?_⟩
  · have hopen : ∀ c ∈ db.cases, openAt node (
        if c.caseId ∈ db.backAmong timeout (db.cases.filter fun c => isOpen c.status) then
          CaseSet.restore.apply w.now c else c) =
        (openAt node c && !db.model.areBack timeout (db.devicesOf c.caseId)) := by
      intro c hc
      simp only [mem_backAmong timeout hc]
      cases hstatus : isOpen c.status with
      | false => simp [openAt, hstatus]
      | true =>
          cases db.model.areBack timeout (db.devicesOf c.caseId) with
          | false => simp
          | true => simp [openAt, CaseSet.apply, isOpen]
    rw [hcases, List.filter_map, List.filter_filter]
    have hkept : db.cases.filter (openAt node ∘ fun c =>
        if c.caseId ∈ db.backAmong timeout (db.cases.filter fun c => isOpen c.status) then
          CaseSet.restore.apply w.now c else c) =
        db.cases.filter fun c =>
          !db.model.areBack timeout (db.devicesOf c.caseId) && openAt node c :=
      List.filter_congr fun c hc => by rw [Function.comp_apply, hopen c hc, Bool.and_comm]
    rw [hkept]
    refine (List.map_congr_left fun c hc => ?_).trans (List.map_id _)
    obtain ⟨hc, hat⟩ := List.mem_filter.mp hc
    rw [Bool.and_eq_true, Bool.not_eq_true'] at hat
    rw [if_neg]
    · rfl
    · rw [mem_backAmong timeout hc, hat.1]
      simp
  · rw [OmsDb.caseIds, hcases, List.map_map]
    refine List.map_congr_left fun c _ => ?_
    rw [Function.comp_apply]
    split <;> rfl
  · rw [hcases] at hc'
    obtain ⟨c, hc, rfl⟩ := List.mem_map.mp hc'
    simp only [mem_backAmong timeout hc] at hopen ⊢
    split at hopen
    · cases hopen
    · rename_i hnot
      rw [if_neg hnot]
      refine ⟨hc, ?_⟩
      rw [Bool.eq_false_iff]
      exact fun hback => hnot ⟨hopen, hback⟩
  · rw [OmsDb.backAmong, List.map_eq_nil_iff, List.filter_eq_nil_iff]
    intro c hc
    obtain ⟨hc, hopen⟩ := List.mem_filter.mp hc
    rw [h c hc hopen]
    exact Bool.false_ne_true

end Phases

end DiepLab.Oms
