import DiepLab.Oms.Phases

/-!
A whole sweep.

A sweep completes exactly when every dark meter is placed: it has a node, or its
own id happens to name one (`run_sweep`, `run_sweep_aborts`). From what the
three phases do follow the two laws about one sweep: which dark meters are
attached to an open case of their section afterwards, and which new reports are
linked to an open case.
-/

namespace DiepLab.Oms

open StatementProgram

variable (timeout : Timeout)

/-- `POST /oms/detect`, alone. -/
def sweep (w : Moment) (db : OmsDb) : Except Exc DetectionResult × OmsDb :=
  (runDetection timeout).run (alone w) db

/-- An identifier that is longer than every other. -/
def freshId (db : OmsDb) : String :=
  String.ofList (List.replicate ((db.caseIds.map String.length).foldr max 0 + 1) 'c')

theorem freshId_notMem (db : OmsDb) : freshId db ∉ db.caseIds := by
  intro hmem
  have hle : ∀ (ids : List String) (id : String), id ∈ ids →
      id.length ≤ (ids.map String.length).foldr max 0 := by
    intro ids
    induction ids with
    | nil => exact fun id h => absurd h List.not_mem_nil
    | cons a ids ih =>
        intro id h
        rw [List.map_cons, List.foldr_cons]
        rcases List.mem_cons.mp h with rfl | h
        · exact le_max_left _ _
        · exact (ih id h).trans (le_max_right _ _)
  have hlength := hle _ _ hmem
  rw [freshId, String.length_ofList, List.length_replicate] at hlength
  omega

/-- A moment at which identifiers are drawn in this way. -/
def counting : Moment where
  uuid4 := freshId
  fresh := freshId_notMem
  now := 0

/-! ### Which sweeps complete -/

/-- Every dark meter has a node, or is itself named like a node or UNKNOWN. -/
def Placed (m : Model) : Prop :=
  ∀ dark ∈ m.metersOut timeout, given (m.meterNode dark.1) = none →
    dark.1 ∈ m.nodeIds ∨ dark.1 = "UNKNOWN"

instance (m : Model) : Decidable (Placed timeout m) :=
  inferInstanceAs (Decidable (∀ dark ∈ m.metersOut timeout, _))

theorem Model.rootOr_mem (m : Model) {mnode : Option String} (key : String)
    (h : ∀ n, mnode = some n → n ∈ m.nodeIds) :
    m.rootOr mnode key ∈ m.nodeIds ∨ given mnode = none ∧ m.rootOr mnode key = key := by
  rw [Model.rootOr]
  cases hnode : given mnode with
  | none => exact Or.inr ⟨rfl, rfl⟩
  | some n => exact Or.inl (m.sectionRoot_mem (h n (given_eq_some hnode).1))

theorem OmsDb.mem_newReports {db : OmsDb} {r : ReportRow} :
    r ∈ db.newReports ↔ r ∈ db.reports ∧ r.status = .NEW := by
  simp [newReports]

theorem OmsDb.newReports_knows {db : OmsDb} {r : ReportRow} (h : r ∈ db.newReports) :
    db.model.Knows r :=
  db.report_refs r (OmsDb.mem_newReports.mp h).1

/-- The key of a report is a node or UNKNOWN. -/
theorem reportSignal_key {db : OmsDb} {r : ReportRow} (h : r ∈ db.newReports) :
    (db.model.reportSignal r).key ∈ db.model.nodeIds ∨
      given (db.model.reportNode r) = none ∧ (db.model.reportSignal r).key = "UNKNOWN" := by
  refine (db.model.rootOr_mem _ fun n hn =>
    db.model.reportNode_mem (OmsDb.newReports_knows h) hn).imp id fun ⟨hnone, hkey⟩ => ⟨hnone, ?_⟩
  refine hkey.trans ?_
  cases hown : given r.nodeId with
  | none => rfl
  | some n =>
      have hnode : db.model.reportNode r = some n := by
        rw [Model.reportNode, Model.namedNode, hown]
      obtain ⟨hraw, hne⟩ := given_eq_some hown
      rw [hnode, given, if_neg hne] at hnone
      cases hnone

theorem placed_iff (db : OmsDb) :
    (∀ s ∈ db.signals timeout, s.key = "UNKNOWN" ∨ s.key ∈ db.model.nodeIds) ↔
      Placed timeout db.model := by
  constructor
  · intro h dark hdark hnone
    have hsignal := h (db.model.meterSignal dark)
      (List.mem_append_left _ (List.mem_map_of_mem hdark))
    have hkey : (db.model.meterSignal dark).key = dark.1 := by
      rw [Model.meterSignal, Model.rootOr, hnone]
    rw [hkey] at hsignal
    exact hsignal.symm
  · intro h s hs
    rcases List.mem_append.mp hs with hs | hs
    · obtain ⟨dark, hdark, rfl⟩ := List.mem_map.mp hs
      rcases db.model.rootOr_mem dark.1 fun n hn => db.model.meterNode_mem hn with
        hmem | ⟨hnone, hkey⟩
      · exact Or.inr hmem
      · have hdev := h dark hdark hnone
        rw [← hkey] at hdev
        exact hdev.symm
    · obtain ⟨r, hr, rfl⟩ := List.mem_map.mp hs
      exact (reportSignal_key hr).symm.imp And.right id

theorem mem_smartMeters {m : Model} {dev : String} (h : dev ∈ m.smartMeters) :
    dev ∈ m.deviceIds := by
  obtain ⟨d, hd, rfl⟩ := List.mem_map.mp h
  exact List.mem_map_of_mem (List.mem_filter.mp hd).1

/-- The schema admits the meters of every group. -/
theorem attachable_groups {db : OmsDb} {key : String} {g : Group}
    (h : (key, g) ∈ db.groups timeout) : Attachable db.model g.meters := by
  obtain ⟨-, rfl⟩ := mem_groups.mp h
  intro dm hdm
  rcases Group.mem_meters_addAll hdm with hnil | ⟨s, hs, hdev, hnode⟩
  · exact absurd hnil List.not_mem_nil
  · rcases List.mem_append.mp (List.mem_filter.mp hs).1 with hs | hs
    · obtain ⟨dark, hdark, rfl⟩ := List.mem_map.mp hs
      obtain ⟨hsmart, -⟩ := db.model.mem_metersOut timeout |>.mp hdark
      have hdev' : some dark.1 = some dm.1 := (given_eq_some hdev).1
      injection hdev' with hdev'
      refine ⟨hdev' ▸ mem_smartMeters hsmart, fun n hn => ?_⟩
      exact db.model.meterNode_mem (hnode.trans hn)
    · obtain ⟨r, hr, rfl⟩ := List.mem_map.mp hs
      have hknows := OmsDb.newReports_knows hr
      exact ⟨hknows.1 _ (given_eq_some hdev).1,
        fun n hn => db.model.reportNode_mem hknows (hnode.trans hn)⟩

theorem servable_groups {db : OmsDb} (h : Placed timeout db.model) :
    Servable db.model (db.groups timeout) := by
  rintro ⟨key, g⟩ hkg hkey
  refine ⟨?_, attachable_groups timeout hkg⟩
  obtain ⟨hne, -⟩ := mem_groups.mp hkg
  obtain ⟨s, hs⟩ := List.exists_mem_of_ne_nil _ hne
  obtain ⟨hmem, hskey⟩ := List.mem_filter.mp hs
  obtain rfl : s.key = key := by simpa using hskey
  exact ((placed_iff timeout db).mpr h s hmem).resolve_left hkey

/-- What a sweep that completes does, phase by phase. -/
structure Swept (db db₁ db₂ db₃ : OmsDb) : Prop where
  serves : Serves (db.groups timeout) db db₁
  links : Links db.newReports db₁ db₂
  restores : Restores timeout db₂ db₃

/-- The start of a sweep is to read. -/
theorem run_detection_reads (w : Moment) (db : OmsDb) :
    sweep timeout w db = (do
      let upserted ← upsertGroups (db.groups timeout) {}
      linkReports db.newReports
      let openCases ← sql .openCases
      let restored ← restoreCases timeout openCases []
      let signals ← metersOut timeout
      pure {
        created := upserted.created
        updated := upserted.updated
        restored := restored
        metersOut := signals.map Prod.fst
        newReports := db.newReports.length } : OmsProg DetectionResult).run (alone w) db := by
  rw [sweep, runDetection, Prog.run_bind, run_metersOut]
  dsimp only
  rw [Prog.run_bind, run_groupMeters]
  dsimp only
  rw [Prog.run_bind, Prog.run_call, alone_eq]
  simp only [omsExec]
  rw [Prog.run_bind, show db.reports.filter (fun r => r.status = .NEW) = db.newReports from rfl,
    run_groupReports]
  dsimp only
  rw [OmsDb.groups, OmsDb.signals, addSignals, addSignals, addSignals, List.foldl_append]

theorem run_sweep (w : Moment) {db : OmsDb} (h : Placed timeout db.model) :
    ∃ result done db₁ db₂ db₃, sweep timeout w db = (.ok result, db₃) ∧
      (upsertGroups (db.groups timeout) {}).run (alone w) db = (.ok done, db₁) ∧
      (linkReports db.newReports).run (alone w) db₁ = (.ok (), db₂) ∧
      Swept timeout db db₁ db₂ db₃ := by
  obtain ⟨done, db₁, hserve, h₁⟩ := run_upsertGroups w (nodup_groups timeout db)
    (servable_groups timeout h) {}
  obtain ⟨db₂, hlink, h₂⟩ := run_linkReports w db₁ db.newReports
  obtain ⟨restored, db₃, hrestore, h₃⟩ := run_restoreOpen w timeout db₂ []
  refine ⟨⟨done.created, done.updated, restored, (db₃.model.metersOut timeout).map Prod.fst,
    db.newReports.length⟩, done, db₁, db₂, db₃, ?_, hserve, hlink, h₁, h₂, h₃⟩
  rw [run_detection_reads, Prog.run_bind, hserve]
  dsimp only
  rw [Prog.run_bind, hlink]
  dsimp only
  rw [Prog.run_bind, Prog.run_call, alone_eq]
  simp only [omsExec]
  rw [Prog.run_bind, hrestore]
  dsimp only
  rw [Prog.run_bind, run_metersOut]
  rfl

theorem groups_congr {a b : OmsDb} (hmodel : b.model = a.model) (hreports : b.reports = a.reports) :
    b.groups timeout = a.groups timeout := by
  rw [OmsDb.groups, OmsDb.groups, OmsDb.signals, OmsDb.signals, OmsDb.newReports,
    OmsDb.newReports, hmodel, hreports]

/-- A sweep that meets a meter without a place ends there; so does the next. -/
theorem run_sweep_aborts (w : Moment) {db : OmsDb} (h : ¬ Placed timeout db.model) :
    ∃ e db₁, sweep timeout w db = (.error e, db₁) ∧ db₁.reports = db.reports ∧
      ∀ w', (sweep timeout w' db₁).2 = db₁ := by
  have hbad : ∃ kg ∈ db.groups timeout, kg.1 ≠ "UNKNOWN" ∧ kg.1 ∉ db.model.nodeIds := by
    by_contra hall
    refine h ((placed_iff timeout db).mp fun s hs => ?_)
    by_contra hs'
    rw [not_or] at hs'
    have hne : db.signalsAt timeout s.key ≠ [] :=
      List.ne_nil_of_mem (List.mem_filter.mpr ⟨hs, by simp⟩)
    exact hall ⟨_, mem_groups.mpr ⟨hne, rfl⟩, hs'⟩
  obtain ⟨kg, hfirst⟩ : ∃ kg, (db.groups timeout).find?
      (fun kg => kg.1 ≠ "UNKNOWN" && kg.1 ∉ db.model.nodeIds) = some kg := by
    obtain ⟨kg, hkg, hne, hnode⟩ := hbad
    exact Option.isSome_iff_exists.mp (List.find?_isSome.mpr ⟨kg, hkg, by simp [hne, hnode]⟩)
  obtain ⟨hkg, pre, post, hsplit, hpre⟩ := List.find?_eq_some_iff_append.mp hfirst
  obtain ⟨key, g⟩ := kg
  obtain ⟨hkey, hnode⟩ : key ≠ "UNKNOWN" ∧ key ∉ db.model.nodeIds := by simpa using hkg
  have hservable : Servable db.model pre := by
    intro kg hmem hne
    have hgroup : (kg.1, kg.2) ∈ db.groups timeout := by
      rw [hsplit]
      exact List.mem_append_left _ hmem
    have hgood := hpre kg hmem
    exact ⟨by simpa [hne] using hgood, attachable_groups timeout hgroup⟩
  have hnodup : (pre.map Prod.fst).Nodup := by
    have hall := nodup_groups timeout db
    rw [hsplit, List.map_append] at hall
    exact hall.of_append_left
  obtain ⟨done, db₁, hrun, h₁⟩ := run_upsertGroups w hnodup hservable {}
  obtain ⟨e, hstop⟩ := run_upsertGroups_unknown w g post hkey hrun
    (h₁.model ▸ hnode)
  refine ⟨e, db₁, ?_, h₁.reports, fun w' => ?_⟩
  · rw [run_detection_reads, Prog.run_bind, hsplit, hstop]
  · have hserved : ∀ kg ∈ pre, kg.1 ≠ "UNKNOWN" → Served db₁ kg.1 kg.2 :=
      fun kg hmem hne => h₁.served kg.1 kg.2 hmem hne
    have hservable₁ : Servable db₁.model pre := h₁.model ▸ hservable
    obtain ⟨done', hrun'⟩ := run_upsertGroups_served w' hservable₁ hserved {}
    obtain ⟨e', hstop'⟩ := run_upsertGroups_unknown w' g post hkey hrun'
      (h₁.model ▸ hnode)
    rw [run_detection_reads, Prog.run_bind, groups_congr timeout h₁.model h₁.reports, hsplit,
      hstop']

/-! ### Dark meters -/

/-- The node has an open case with the meter attached. -/
def OmsDb.Attached (db : OmsDb) (node dev : String) : Prop :=
  ∃ c ∈ db.cases, openAt node c = true ∧ dev ∈ db.devicesOf c.caseId

/-- A signal of the section names the meter, and the section is not passed
over. -/
def Gathers (db : OmsDb) (node dev : String) : Prop :=
  node ≠ "UNKNOWN" ∧ ∃ s ∈ db.signalsAt timeout node, given s.dev = some dev

instance (db : OmsDb) (node dev : String) : Decidable (db.Attached node dev) :=
  inferInstanceAs (Decidable (∃ c ∈ db.cases, _))

instance (db : OmsDb) (node dev : String) : Decidable (Gathers timeout db node dev) :=
  inferInstanceAs (Decidable (_ ∧ ∃ s ∈ db.signalsAt timeout node, _))

theorem attached_iff_view {db : OmsDb} {node dev : String} :
    db.Attached node dev ↔
      dev ∈ (db.view node).devices ∨ ∃ o ∈ (db.view node).older, dev ∈ o.2 := by
  constructor
  · rintro ⟨c, hc, hopen, hdev⟩
    have hmem : c ∈ db.cases.filter (openAt node) := List.mem_filter.mpr ⟨hc, hopen⟩
    cases hcase : db.openCaseForNode node with
    | none =>
        rw [OmsDb.openCaseForNode, latestDetected_eq_none] at hcase
        rw [hcase] at hmem
        exact absurd hmem List.not_mem_nil
    | some d =>
        by_cases hid : c.caseId = d.caseId
        · refine Or.inl ?_
          rw [OmsDb.view, OmsDb.attachedAt_of_open hcase, ← hid]
          exact hdev
        · refine Or.inr ⟨(c, db.devicesOf c.caseId), List.mem_map.mpr ⟨c, ?_, rfl⟩, hdev⟩
          exact List.mem_filter.mpr ⟨hmem, by simpa [hcase] using hid⟩
  · rintro (hdev | ⟨o, ho, hdev⟩)
    · cases hcase : db.openCaseForNode node with
      | none => simp [OmsDb.view, OmsDb.attachedAt, hcase] at hdev
      | some d =>
          obtain ⟨hd, hopen⟩ := OmsDb.openCaseForNode_spec hcase
          refine ⟨d, hd, hopen, ?_⟩
          rw [← OmsDb.attachedAt_of_open hcase]
          exact hdev
    · obtain ⟨c, hc, rfl⟩ := List.mem_map.mp ho
      obtain ⟨hc, hopen⟩ := List.mem_filter.mp (List.mem_filter.mp hc).1
      exact ⟨c, hc, hopen, hdev⟩

theorem mem_devices_group {db : OmsDb} {node dev : String} :
    dev ∈ (Group.addAll {} (db.signalsAt timeout node)).devices ↔
      ∃ s ∈ db.signalsAt timeout node, given s.dev = some dev := by
  rw [Group.mem_devices_addAll]
  exact or_iff_right List.not_mem_nil

/-- What the first phase attaches. -/
theorem Serves.attached {db db₁ : OmsDb} (h : Serves (db.groups timeout) db db₁)
    (node dev : String) :
    dev ∈ db₁.attachedAt node ↔ dev ∈ db.attachedAt node ∨ Gathers timeout db node dev := by
  by_cases hnode : node = "UNKNOWN"
  · have hview : db₁.attachedAt node = db.attachedAt node :=
      congrArg SectionView.devices (h.untouched node (Or.inr hnode))
    rw [hview]
    exact (or_iff_left fun hgathers => hgathers.1 hnode).symm
  · by_cases hsignals : db.signalsAt timeout node = []
    · have hkey : node ∉ (db.groups timeout).map Prod.fst := by
        rintro hmem
        obtain ⟨kg, hkg, rfl⟩ := List.mem_map.mp hmem
        exact (mem_groups.mp hkg).1 hsignals
      have hview : db₁.attachedAt node = db.attachedAt node :=
        congrArg SectionView.devices (h.untouched node (Or.inl hkey))
      rw [hview, Gathers, hsignals]
      simp
    · rw [h.devices node _ (mem_groups.mpr ⟨hsignals, rfl⟩) hnode, mem_devices_group, Gathers]
      simp [hnode]

theorem Links.attachedAt {reports : List ReportRow} {db db' : OmsDb} (h : Links reports db db')
    (node : String) : db'.attachedAt node = db.attachedAt node := by
  have hcase := rel_caseId (h.case node)
  rw [OmsDb.attachedAt, OmsDb.attachedAt]
  cases hold : db.openCaseForNode node with
  | none =>
      rw [hold] at hcase
      rw [Option.map_eq_none_iff.mp hcase]
  | some c =>
      rw [hold] at hcase
      obtain ⟨c', hnew, hid⟩ := Option.map_eq_some_iff.mp hcase
      rw [hnew]
      dsimp only
      rw [hid]
      exact OmsDb.devicesOf_congr h.caseMeters _

theorem areBack_eq_false {m : Model} {devs : List String} {dev : String} (hdev : dev ∈ devs)
    (hback : m.isBack timeout dev = false) : m.areBack timeout devs = false := by
  have hall : devs.all (m.isBack timeout) = false := by
    rw [List.all_eq_false]
    exact ⟨dev, hdev, by simp [hback]⟩
  rw [Model.areBack, hall, Bool.and_false]

/-- The third phase keeps the cases of dark meters. -/
theorem Restores.attached {db db' : OmsDb} (h : Restores timeout db db') {node dev : String}
    (hback : db.model.isBack timeout dev = false) :
    db'.Attached node dev ↔ db.Attached node dev := by
  have hdevices : ∀ id, db'.devicesOf id = db.devicesOf id := OmsDb.devicesOf_congr h.caseMeters
  constructor
  · rintro ⟨c, hc, hopen, hdev⟩
    rw [hdevices] at hdev
    exact ⟨c, (h.open_of c hc (openAt_iff.mp hopen).2).1, hopen, hdev⟩
  · rintro ⟨c, hc, hopen, hdev⟩
    have hmem : c ∈ db'.cases.filter (openAt node) := by
      rw [h.opens]
      refine List.mem_filter.mpr ⟨List.mem_filter.mpr ⟨hc, hopen⟩, ?_⟩
      rw [areBack_eq_false timeout hdev hback]
      rfl
    exact ⟨c, (List.mem_filter.mp hmem).1, hopen, by rwa [hdevices]⟩

/-- **Dark meters.** A sweep completes, and leaves every dark meter that has a
node attached to an open case of its section, if and only if the dark meters are
placed and each of these was attached before or is gathered for its section. -/
theorem sweep_attaches (w : Moment) (db : OmsDb) :
    ((∃ result, (sweep timeout w db).1 = .ok result) ∧
      ∀ dark ∈ db.model.metersOut timeout, ∀ n, db.model.meterNode dark.1 = some n →
        (sweep timeout w db).2.Attached (db.model.sectionRoot n) dark.1) ↔
    Placed timeout db.model ∧
      ∀ dark ∈ db.model.metersOut timeout, ∀ n, db.model.meterNode dark.1 = some n →
        db.Attached (db.model.sectionRoot n) dark.1 ∨
          Gathers timeout db (db.model.sectionRoot n) dark.1 := by
  by_cases hplaced : Placed timeout db.model
  · obtain ⟨result, done, db₁, db₂, db₃, hsweep, -, -, h⟩ := run_sweep timeout w hplaced
    rw [hsweep]
    refine and_congr (iff_of_true ⟨result, rfl⟩ hplaced) ?_
    refine forall₂_congr fun dark hdark => forall₂_congr fun n _ => ?_
    obtain ⟨-, hout⟩ := db.model.mem_metersOut timeout |>.mp hdark
    have hback : db₂.model.isBack timeout dark.1 = false := by
      rw [h.links.model, h.serves.model]
      exact db.model.isBack_eq_false hout
    have hdevices : (db₂.view (db.model.sectionRoot n)).devices =
        db₁.attachedAt (db.model.sectionRoot n) := h.links.attachedAt _
    have holder : (db₂.view (db.model.sectionRoot n)).older =
        (db.view (db.model.sectionRoot n)).older := (h.links.older _).trans (h.serves.older _)
    rw [h.restores.attached timeout hback, attached_iff_view, attached_iff_view, hdevices, holder,
      h.serves.attached timeout, or_right_comm]
    rfl
  · obtain ⟨e, db₁, hsweep, -, -⟩ := run_sweep_aborts timeout w hplaced
    refine iff_of_false (fun h => ?_) fun h => hplaced h.1
    obtain ⟨⟨result, hresult⟩, -⟩ := h
    rw [hsweep] at hresult
    cases hresult

/-- The second meter is dark and in no network. Its own id is taken for a section,
and the foreign key ends the sweep. -/
theorem sweep_stops_at_unknown_meter :
    ¬ ((∃ result, (sweep 180 counting (pilotOms (gasping ["METER002", "METER001"]) [] [] [])).1 =
        .ok result) ∧
      ∀ dark ∈ (pilotModel (gasping ["METER002", "METER001"])).metersOut 180, ∀ n,
        (pilotModel (gasping ["METER002", "METER001"])).meterNode dark.1 = some n →
          (sweep 180 counting (pilotOms (gasping ["METER002", "METER001"]) [] [] [])).2.Attached
            ((pilotModel (gasping ["METER002", "METER001"])).sectionRoot n) dark.1) := by
  rintro ⟨⟨result, hresult⟩, -⟩
  have hfails : (sweep 180 counting
      (pilotOms (gasping ["METER002", "METER001"]) [] [] [])).1.isOk = false := by decide +kernel
  rw [hresult] at hfails
  cases hfails

/-! ### New reports -/

theorem ReportRow.linkedTo_reportId (r : ReportRow) (caseId : Option String) :
    (r.linkedTo caseId).reportId = r.reportId := by
  cases caseId <;> rfl

section Relink

variable {target : ReportRow → Option String}

/-- A row is left alone by the reports of other rows. -/
theorem relink_of_not_mem {reports : List ReportRow} {x : ReportRow}
    (h : ∀ r ∈ reports, r.reportId ≠ x.reportId) : relink target reports x = x := by
  induction reports with
  | nil => rfl
  | cons r reports ih =>
      obtain ⟨hr, hrest⟩ := List.forall_mem_cons.mp h
      rw [relink, List.foldl_cons, if_neg (Ne.symm hr)]
      exact ih hrest

/-- A report is linked to its target. -/
theorem relink_of_mem {reports : List ReportRow} {x : ReportRow}
    (hkey : (reports.map ReportRow.reportId).Nodup) (hx : x ∈ reports) :
    relink target reports x = x.linkedTo (target x) := by
  induction reports with
  | nil => exact absurd hx List.not_mem_nil
  | cons r reports ih =>
      rw [List.map_cons, List.nodup_cons] at hkey
      rw [relink, List.foldl_cons]
      rcases List.mem_cons.mp hx with rfl | hx
      · have hrest : ∀ y : ReportRow, y.reportId = x.reportId → relink target reports y = y := by
          intro y hy
          refine relink_of_not_mem fun r hr heq => hkey.1 ?_
          rw [← hy, ← heq]
          exact List.mem_map_of_mem hr
        rw [if_pos rfl]
        exact hrest _ (x.linkedTo_reportId _)
      · have hne : x.reportId ≠ r.reportId := by
          intro heq
          exact hkey.1 (heq ▸ List.mem_map_of_mem hx)
        rw [if_neg hne]
        exact ih hkey.2 hx

end Relink

theorem newReports_key (db : OmsDb) : (db.newReports.map ReportRow.reportId).Nodup :=
  db.report_key.sublist (List.filter_sublist.map _)

/-- What becomes of a new report. -/
theorem Links.mem_reports {db db' : OmsDb} (h : Links db.newReports db db') {r : ReportRow}
    (hr : r ∈ db.newReports) :
    r.linkedTo ((db.target r).map CaseRow.caseId) ∈ db'.reports := by
  rw [h.reports]
  refine List.mem_map.mpr ⟨r, (OmsDb.mem_newReports.mp hr).1, ?_⟩
  exact relink_of_mem (newReports_key db) hr

theorem OmsDb.eq_of_reportId {db : OmsDb} {r r' : ReportRow} (hr : r ∈ db.reports)
    (hr' : r' ∈ db.reports) (h : r.reportId = r'.reportId) : r = r' :=
  List.inj_on_of_nodup_map db.report_key hr hr' h

/-- The meters that the open case of a section has once the section is served. -/
def OmsDb.gathered (db : OmsDb) (node : String) : List String :=
  db.attachedAt node ++
    if node = "UNKNOWN" then []
    else (db.signalsAt timeout node).filterMap fun s => given s.dev

theorem mem_gathered {db : OmsDb} {node dev : String} :
    dev ∈ db.gathered timeout node ↔ dev ∈ db.attachedAt node ∨ Gathers timeout db node dev := by
  rw [OmsDb.gathered, List.mem_append, Gathers]
  by_cases hnode : node = "UNKNOWN"
  · simp [hnode]
  · simp [hnode]

theorem areBack_congr {m : Model} {devs devs' : List String}
    (h : ∀ dev, dev ∈ devs ↔ dev ∈ devs') : m.areBack timeout devs = m.areBack timeout devs' := by
  have hempty : devs.isEmpty = devs'.isEmpty := by
    rw [Bool.eq_iff_iff, List.isEmpty_iff, List.isEmpty_iff, List.eq_nil_iff_forall_not_mem,
      List.eq_nil_iff_forall_not_mem]
    exact forall_congr' fun dev => not_congr (h dev)
  have hall : devs.all (m.isBack timeout) = devs'.all (m.isBack timeout) := by
    rw [Bool.eq_iff_iff, List.all_eq_true, List.all_eq_true]
    exact forall_congr' fun dev => imp_congr (h dev) Iff.rfl
  rw [Model.areBack, Model.areBack, hempty, hall]

/-- The signals of a report with a section are those of the section. -/
theorem reportSignal_root {m : Model} {r : ReportRow} {root : String}
    (h : m.reportRoot r = some root) : (m.reportSignal r).key = root := by
  rw [Model.reportRoot, Option.map_eq_some_iff] at h
  obtain ⟨n, hn, rfl⟩ := h
  rw [Model.reportSignal, Model.rootOr, hn]

theorem signalsAt_of_report {db : OmsDb} {r : ReportRow} (hr : r ∈ db.newReports) {root : String}
    (h : db.model.reportRoot r = some root) :
    db.model.reportSignal r ∈ db.signalsAt timeout root :=
  List.mem_filter.mpr ⟨List.mem_append_right _ (List.mem_map_of_mem hr),
    by simpa using reportSignal_root h⟩

/-- A new report that names a section has the section served. -/
theorem Serves.case_of_report {db db₁ : OmsDb} (h : Serves (db.groups timeout) db db₁)
    {r : ReportRow} (hr : r ∈ db.newReports) {root : String}
    (hroot : given (db.model.reportRoot r) = some root) (hunknown : root ≠ "UNKNOWN") :
    ∃ c, db₁.openCaseForNode root = some c := by
  have hsignals : db.signalsAt timeout root ≠ [] :=
    List.ne_nil_of_mem (signalsAt_of_report timeout hr (given_eq_some hroot).1)
  obtain ⟨c, hc, -⟩ := h.served root _ (mem_groups.mpr ⟨hsignals, rfl⟩) hunknown
  exact ⟨c, hc⟩

/-- Whether a new report finds a case to be linked to. -/
theorem Serves.case_of_report_iff {db db₁ : OmsDb} (h : Serves (db.groups timeout) db db₁)
    {r : ReportRow} (hr : r ∈ db.newReports) {root : String}
    (hroot : given (db.model.reportRoot r) = some root) :
    db₁.openCaseForNode root ≠ none ↔
      (root = "UNKNOWN" → db.openCaseForNode root ≠ none) := by
  by_cases hunknown : root = "UNKNOWN"
  · have hview : db₁.openCaseForNode root = db.openCaseForNode root :=
      congrArg SectionView.case (h.untouched root (Or.inr hunknown))
    rw [hview]
    simp [hunknown]
  · obtain ⟨c, hc⟩ := h.case_of_report timeout hr hroot hunknown
    simp [hunknown, hc]

/-- The third phase asks for the meters that the section has by then. -/
theorem Swept.areBack {db db₁ db₂ db₃ : OmsDb} (h : Swept timeout db db₁ db₂ db₃)
    (node : String) :
    db₂.model.areBack timeout (db₂.attachedAt node) =
      db.model.areBack timeout (db.gathered timeout node) := by
  rw [h.links.model, h.serves.model, h.links.attachedAt]
  refine areBack_congr timeout fun dev => ?_
  rw [h.serves.attached timeout, mem_gathered]

/-- The report is linked to an open case. -/
def OmsDb.LinkedOpen (db : OmsDb) (reportId : String) : Prop :=
  ∃ r ∈ db.reports, r.reportId = reportId ∧ r.status = .LINKED ∧
    ∃ c ∈ db.cases, r.caseId = some c.caseId ∧ isOpen c.status = true

instance (db : OmsDb) (reportId : String) : Decidable (db.LinkedOpen reportId) :=
  inferInstanceAs (Decidable (∃ r ∈ db.reports, _))

/-- The case of a section survives the third phase unless its meters are back. -/
theorem Restores.case_open {db db' : OmsDb} (h : Restores timeout db db') {node : String}
    {c : CaseRow} (hc : db.openCaseForNode node = some c) :
    (∃ d ∈ db'.cases, d.caseId = c.caseId ∧ isOpen d.status = true) ↔
      db.model.areBack timeout (db.attachedAt node) = false := by
  obtain ⟨hmem, hopen⟩ := OmsDb.openCaseForNode_spec hc
  rw [OmsDb.attachedAt_of_open hc]
  constructor
  · rintro ⟨d, hd, hid, hdopen⟩
    obtain ⟨hd, hback⟩ := h.open_of d hd hdopen
    exact hid ▸ hback
  · intro hback
    have hkept : c ∈ db'.cases.filter (openAt node) := by
      rw [h.opens]
      refine List.mem_filter.mpr ⟨List.mem_filter.mpr ⟨hmem, hopen⟩, ?_⟩
      rw [hback]
      rfl
    exact ⟨c, (List.mem_filter.mp hkept).1, rfl, (openAt_iff.mp hopen).2⟩

/-- **New reports.** A sweep leaves a new report linked to an open case if and
only if the dark meters are placed, the report has a section with a case to be
linked to, and the meters of that case are not all back. -/
theorem sweep_links (w : Moment) (db : OmsDb) {r : ReportRow} (hr : r ∈ db.newReports) :
    (sweep timeout w db).2.LinkedOpen r.reportId ↔
      Placed timeout db.model ∧ ∃ root, given (db.model.reportRoot r) = some root ∧
        (root = "UNKNOWN" → db.openCaseForNode root ≠ none) ∧
        db.model.areBack timeout (db.gathered timeout root) = false := by
  obtain ⟨hrmem, hnew⟩ := OmsDb.mem_newReports.mp hr
  by_cases hplaced : Placed timeout db.model
  · obtain ⟨result, done, db₁, db₂, db₃, hsweep, -, -, h⟩ := run_sweep timeout w hplaced
    have hreports : db₁.newReports = db.newReports := by
      rw [OmsDb.newReports, OmsDb.newReports, h.serves.reports]
    have hlinks : Links db₁.newReports db₁ db₂ := hreports ▸ h.links
    have hrow := hlinks.mem_reports (hreports ▸ hr)
    rw [← h.restores.reports] at hrow
    -- The row of the report is the one that the second phase has left.
    have honly : ∀ r' ∈ db₃.reports, r'.reportId = r.reportId →
        r' = r.linkedTo ((db₁.target r).map CaseRow.caseId) := fun r' hr' hid =>
      OmsDb.eq_of_reportId hr' hrow (hid.trans (r.linkedTo_reportId _).symm)
    rw [hsweep]
    simp only [hplaced, true_and]
    rw [OmsDb.target, h.serves.model] at hrow honly
    cases hroot : given (db.model.reportRoot r) with
    | none =>
        rw [hroot] at honly
        refine iff_of_false ?_ (by simp)
        rintro ⟨r', hr', hid, hlinked, -⟩
        rw [honly r' hr' hid] at hlinked
        exact absurd (hnew.symm.trans hlinked) (by decide)
    | some root =>
        rw [hroot, Option.bind_some] at hrow honly
        simp only [Option.some.injEq, exists_eq_left']
        rw [← h.serves.case_of_report_iff timeout hr hroot]
        cases hcase : db₁.openCaseForNode root with
        | none =>
            rw [hcase] at honly
            refine iff_of_false ?_ (by simp)
            rintro ⟨r', hr', hid, hlinked, -⟩
            rw [honly r' hr' hid] at hlinked
            exact absurd (hnew.symm.trans hlinked) (by decide)
        | some c =>
            rw [hcase] at hrow honly
            obtain ⟨c₂, hcase₂, hcorr⟩ := h.links.case_some hcase
            rw [← h.areBack timeout root, ← h.restores.case_open timeout hcase₂, hcorr.caseId]
            simp only [ne_eq, reduceCtorEq, not_false_eq_true, true_and]
            constructor
            · rintro ⟨r', hr', hid, -, d, hd, hlink, hopen⟩
              rw [honly r' hr' hid] at hlink
              injection hlink with hlink
              exact ⟨d, hd, hlink.symm, hopen⟩
            · rintro ⟨d, hd, hid, hopen⟩
              exact ⟨_, hrow, rfl, rfl, d, hd, congrArg some hid.symm, hopen⟩
  · obtain ⟨e, db₁, hsweep, hreports, -⟩ := run_sweep_aborts timeout w hplaced
    refine iff_of_false ?_ fun h => hplaced h.1
    rintro ⟨r', hr', hid, hlinked, -⟩
    rw [hsweep, hreports] at hr'
    rw [OmsDb.eq_of_reportId hr' hrmem hid, hnew] at hlinked
    exact absurd hlinked (by decide)

/-- A customer without power calls about the dark meter. -/
theorem sweep_links_call_about_dark_meter :
    (sweep 180 counting (pilotOms (gasping ["METER001"]) [] []
      [{ reportId := "r1", customerId := some "CUST-1" }])).2.LinkedOpen "r1" :=
  (sweep_links 180 counting _ (r := { reportId := "r1", customerId := some "CUST-1" })
    (by decide)).mpr ⟨by decide +kernel, "BUS-01", by decide +kernel⟩

/-- A customer calls while the meter reports. The case is opened, linked and
restored in one sweep. -/
theorem sweep_restores_called_case :
    ¬ (sweep 180 counting (pilotOms (gasping []) [] []
      [{ reportId := "r1", meterDeviceId := some "METER001" }])).2.LinkedOpen "r1" := by
  decide +kernel

end DiepLab.Oms
