import DiepLab.Oms.Sweep

/-!
Sweeping twice.

The second of two sweeps finds the same dark meters, but only those of the new
reports that the first could not link. It changes nothing exactly when every
section with something out is already served: `sweep_idle_iff` for a database
that a sweep has left. `sweep_again` says the same of the database before the
first sweep. A section is resettled when its case survives the first sweep and
the reports that were linked make no difference to its cause.
-/

namespace DiepLab.Oms

open StatementProgram

variable (timeout : Timeout)

/-! ### What is left for the second sweep -/

namespace OmsDb

/-- The signals of the dark meters of a section. -/
def darkAt (db : OmsDb) (node : String) : List Signal :=
  ((db.model.metersOut timeout).map db.model.meterSignal).filter fun s => s.key = node

def reportsAt (db : OmsDb) (node : String) : List Signal :=
  (db.newReports.map db.model.reportSignal).filter fun s => s.key = node

/-- The signals of a section that a sweep does not use up. No report is linked to
a section whose id is empty. -/
def remaining (db : OmsDb) (node : String) : List Signal :=
  db.darkAt timeout node ++ if node = "" then db.reportsAt node else []

/-- The latest of the open cases of a section that come after its latest one and
survive a sweep. -/
def nextCase (db : OmsDb) (node : String) : Option CaseRow :=
  latestDetected ((((db.view node).older.filter fun o =>
    !db.model.areBack timeout o.2)).map Prod.fst)

/-- After a sweep the section is as the next sweep would have it: its case is
still open and the reports that were linked do not count; or the case is
restored and the next one happens to be right. -/
def Resettled (db : OmsDb) (node : String) : Prop :=
  if db.model.areBack timeout (db.gathered timeout node) = false then
    groupCause (Group.addAll {} (db.signalsAt timeout node)).causes =
      groupCause (Group.addAll {} (db.remaining timeout node)).causes
  else
    ∃ c ∈ db.nextCase timeout node,
      c.cause = groupCause (Group.addAll {} (db.remaining timeout node)).causes ∧
      c.customersAffected = db.model.customersAffected node ∧
      (Group.addAll {} (db.remaining timeout node)).devices ⊆ db.devicesOf c.caseId

instance (db : OmsDb) (node : String) : Decidable (db.Resettled timeout node) := by
  unfold Resettled
  infer_instance

end OmsDb

theorem signalsAt_eq (db : OmsDb) (node : String) :
    db.signalsAt timeout node = db.darkAt timeout node ++ db.reportsAt node :=
  List.filter_append ..

/-- A database as a sweep leaves it: a new report has no section, or one that is
passed over, and no open case has only meters that are back. -/
structure Quiet (db : OmsDb) : Prop where
  reports : ∀ r ∈ db.newReports, ∀ root, given (db.model.reportRoot r) = some root →
    root = "UNKNOWN" ∧ db.openCaseForNode root = none
  cases : ∀ c ∈ db.cases, isOpen c.status = true →
    db.model.areBack timeout (db.devicesOf c.caseId) = false

section Quiet

variable {timeout} {db : OmsDb}

/-- On a quiet database the second phase of a sweep does nothing. -/
theorem Quiet.links (hquiet : Quiet timeout db) (w : Moment) {db₁ : OmsDb}
    (h : Serves (db.groups timeout) db db₁) :
    (linkReports db.newReports).run (alone w) db₁ = (.ok (), db₁) := by
  refine run_linkReports_none w fun r hr => ?_
  rw [OmsDb.target, h.model]
  cases hroot : given (db.model.reportRoot r) with
  | none => rfl
  | some root =>
      obtain ⟨hunknown, hnone⟩ := hquiet.reports r hr root hroot
      have hview : db₁.openCaseForNode root = db.openCaseForNode root :=
        congrArg SectionView.case (h.untouched root (Or.inr hunknown))
      exact hview.trans hnone

/-- **When a sweep changes nothing.** -/
theorem sweep_idle_iff (hquiet : Quiet timeout db) (hplaced : Placed timeout db.model)
    (w : Moment) :
    (sweep timeout w db).2 = db ↔
      ∀ kg ∈ db.groups timeout, kg.1 ≠ "UNKNOWN" → Served db kg.1 kg.2 := by
  obtain ⟨result, done, db₁, db₂, db₃, hsweep, hserve, hlink, h⟩ := run_sweep timeout w hplaced
  have hsame : db₂ = db₁ := by
    rw [hquiet.links w h.serves] at hlink
    exact (Prod.mk.inj hlink).2.symm
  subst hsame
  rw [hsweep]
  dsimp only
  constructor
  · rintro rfl ⟨key, g⟩ hkg hkey
    obtain ⟨c, hc, hcause, hcustomers, hdevices⟩ := h.serves.served key g hkg hkey
    have hmeters : ∀ id, db₂.devicesOf id = db₃.devicesOf id :=
      fun id => (OmsDb.devicesOf_congr h.restores.caseMeters id).symm
    have hid : c.caseId ∈ db₃.caseIds :=
      h.restores.ids ▸ OmsDb.mem_caseIds (OmsDb.openCaseForNode_spec hc).1
    cases hopen : db₃.openCaseForNode key with
    | none => exact absurd hid (h.serves.opened key g hkg hkey c hc hopen)
    | some c₀ =>
        -- The case is the one that was open, and what was written is still there.
        obtain ⟨hc₀, hat⟩ := OmsDb.openCaseForNode_spec hopen
        have hmem := (h.restores.open_of c₀ hc₀ (openAt_iff.mp hat).2).1
        have hkept := h.serves.kept key g hkg hkey c c₀ hc hopen
        obtain rfl := OmsDb.eq_of_caseId (OmsDb.openCaseForNode_spec hc).1 hmem hkept
        refine ⟨c, hopen, hcause, by rw [hcustomers, h.restores.model], ?_⟩
        rw [OmsDb.attachedAt_of_open hc, hmeters] at hdevices
        rw [OmsDb.attachedAt_of_open hopen]
        exact hdevices
  · intro hserved
    obtain ⟨done', hidle⟩ := run_upsertGroups_served w (servable_groups timeout hplaced) hserved {}
    rw [hidle] at hserve
    obtain rfl : db = db₂ := (Prod.mk.inj hserve).2
    exact h.restores.idle hquiet.cases

end Quiet

/-! ### What a sweep leaves -/

section After

variable {timeout} {db db₁ db₂ db₃ : OmsDb}

theorem Swept.model (h : Swept timeout db db₁ db₂ db₃) : db₃.model = db.model :=
  h.restores.model.trans (h.links.model.trans h.serves.model)

/-- The new reports that are left are those that were not linked. -/
theorem Swept.newReports (h : Swept timeout db db₁ db₂ db₃) :
    db₃.newReports = db.newReports.filter fun r => (db₁.target r).isNone := by
  have hrow : ∀ r ∈ db.reports,
      relink (fun r => (db₁.target r).map CaseRow.caseId) db.newReports r =
        if r.status = .NEW then r.linkedTo ((db₁.target r).map CaseRow.caseId) else r := by
    intro r hr
    split
    · rename_i hnew
      exact relink_of_mem (newReports_key db) (OmsDb.mem_newReports.mpr ⟨hr, hnew⟩)
    · rename_i hnew
      refine relink_of_not_mem fun r' hr' hid => hnew ?_
      obtain ⟨hr', hnew'⟩ := OmsDb.mem_newReports.mp hr'
      exact OmsDb.eq_of_reportId hr' hr hid ▸ hnew'
  have hstill : ∀ r ∈ db.reports, decide ((relink (fun r => (db₁.target r).map CaseRow.caseId)
      db.newReports r).status = .NEW) = (decide (r.status = .NEW) && (db₁.target r).isNone) := by
    intro r hr
    rw [hrow r hr]
    by_cases hnew : r.status = .NEW
    · rw [if_pos hnew]
      cases db₁.target r with
      | none => simp [ReportRow.linkedTo, hnew]
      | some c => simp [ReportRow.linkedTo, ReportRow.linked]
    · simp [hnew]
  rw [OmsDb.newReports, h.restores.reports, h.links.reports, h.serves.reports, List.filter_map]
  have hfilter : db.reports.filter ((fun r => decide (r.status = .NEW)) ∘
      relink (fun r => (db₁.target r).map CaseRow.caseId) db.newReports) =
      db.newReports.filter fun r => (db₁.target r).isNone := by
    rw [OmsDb.newReports, List.filter_filter]
    exact List.filter_congr fun r hr => (hstill r hr).trans (Bool.and_comm _ _)
  rw [hfilter]
  refine (List.map_congr_left fun r hr => ?_).trans (List.map_id _)
  obtain ⟨hr, hnone⟩ := List.mem_filter.mp hr
  obtain ⟨hr, hnew⟩ := OmsDb.mem_newReports.mp hr
  rw [hrow r hr, if_pos hnew, Option.isNone_iff_eq_none.mp hnone]
  rfl

theorem Swept.quiet (h : Swept timeout db db₁ db₂ db₃) : Quiet timeout db₃ where
  reports r hr root hroot := by
    rw [h.newReports] at hr
    obtain ⟨hr, hnone⟩ := List.mem_filter.mp hr
    rw [h.model] at hroot
    have htarget := Option.isNone_iff_eq_none.mp hnone
    rw [OmsDb.target, h.serves.model, hroot, Option.bind_some] at htarget
    have hunknown : root = "UNKNOWN" := by
      by_contra hunknown
      obtain ⟨c, hc⟩ := h.serves.case_of_report timeout hr hroot hunknown
      rw [htarget] at hc
      cases hc
    refine ⟨hunknown, ?_⟩
    have hnone₂ := h.links.case_none htarget
    rw [OmsDb.openCaseForNode, latestDetected_eq_none] at hnone₂ ⊢
    rw [h.restores.opens, hnone₂]
    rfl
  cases c hc hopen := by
    rw [h.restores.model, OmsDb.devicesOf_congr h.restores.caseMeters]
    exact (h.restores.open_of c hc hopen).2

/-- A report of a section that is not passed over has the section as its root. -/
theorem root_of_key {m : Model} {r : ReportRow} {node : String} (hnode : node ≠ "UNKNOWN")
    (hkey : (m.reportSignal r).key = node) : m.reportRoot r = some node := by
  cases hroot : m.reportRoot r with
  | some root => rw [← hkey, reportSignal_root hroot]
  | none =>
      have hnone : given (m.reportNode r) = none := by
        rw [Model.reportRoot, Option.map_eq_none_iff] at hroot
        exact hroot
      have hown : given r.nodeId = none := by
        cases hown : given r.nodeId with
        | none => rfl
        | some n =>
            have hreport : m.reportNode r = some n := by
              rw [Model.reportNode, Model.namedNode, hown]
            rw [hreport, given, if_neg (given_eq_some hown).2] at hnone
            cases hnone
      rw [Model.reportSignal, Model.rootOr, hnone, hown] at hkey
      exact absurd hkey.symm hnode

/-- The second sweep sees what remains. -/
theorem Swept.signalsAt (h : Swept timeout db db₁ db₂ db₃) {node : String}
    (hnode : node ≠ "UNKNOWN") : db₃.signalsAt timeout node = db.remaining timeout node := by
  have hdark : db₃.darkAt timeout node = db.darkAt timeout node := by
    rw [OmsDb.darkAt, OmsDb.darkAt, h.model]
  rw [signalsAt_eq, OmsDb.remaining, hdark]
  congr 1
  rw [OmsDb.reportsAt, h.model, h.newReports, List.filter_map, List.filter_filter]
  split
  · -- No report is linked to a section without a name.
    rename_i hempty
    rw [OmsDb.reportsAt, List.filter_map]
    refine congrArg _ (List.filter_congr fun r _ => ?_)
    rw [Function.comp_apply]
    by_cases hkey : (db.model.reportSignal r).key = node
    · have hroot := root_of_key hnode hkey
      have htarget : db₁.target r = none := by
        rw [OmsDb.target, h.serves.model, hroot, hempty]
        rfl
      simp [hkey, htarget]
    · simp [hkey]
  · rename_i hnamed
    rw [List.map_eq_nil_iff, List.filter_eq_nil_iff]
    intro r hr hboth
    obtain ⟨hkey, hnone⟩ : (db.model.reportSignal r).key = node ∧ db₁.target r = none := by
      simpa using hboth
    have hroot := root_of_key hnode hkey
    have hgiven : given (db.model.reportRoot r) = some node := by
      rw [hroot, given, if_neg hnamed]
    rw [OmsDb.target, h.serves.model, hgiven, Option.bind_some] at hnone
    have hsignals : db.signalsAt timeout node ≠ [] :=
      List.ne_nil_of_mem (signalsAt_of_report timeout hr hroot)
    obtain ⟨c, hc, -⟩ := h.serves.served node _ (mem_groups.mpr ⟨hsignals, rfl⟩) hnode
    rw [hnone] at hc
    cases hc

theorem mem_causes_group {signals : List Signal} {cause : Cause} :
    cause ∈ (Group.addAll {} signals).causes ↔ ∃ s ∈ signals, s.cause = cause := by
  rw [Group.mem_causes_addAll]
  exact or_iff_right List.not_mem_nil

theorem darkAt_cause {s : Signal} {node : String} (h : s ∈ db.darkAt timeout node) :
    s.cause ≠ .manual := by
  obtain ⟨dark, hdark, rfl⟩ := List.mem_map.mp (List.mem_filter.mp h).1
  obtain ⟨-, hout⟩ := db.model.mem_metersOut timeout |>.mp hdark
  rw [Model.outage, Option.bind_eq_some_iff] at hout
  obtain ⟨latest, -, hsignal⟩ := hout
  change dark.2 ≠ .manual
  rw [outageSignal] at hsignal
  split at hsignal
  · injection hsignal with hcause
    rw [← hcause]
    decide
  · split at hsignal
    · injection hsignal with hcause
      rw [← hcause]
      decide
    · cases hsignal

theorem remaining_subset (db : OmsDb) (node : String) :
    db.remaining timeout node ⊆ db.signalsAt timeout node := by
  rw [signalsAt_eq, OmsDb.remaining]
  split
  · exact List.Subset.refl _
  · rw [List.append_nil]
    exact List.subset_append_left _ _

/-- The case of a section after the second phase: where something remains, being
corroborated has not changed its cause. -/
theorem Swept.case (h : Swept timeout db db₁ db₂ db₃) {node : String} (hnode : node ≠ "UNKNOWN")
    (hremains : db.remaining timeout node ≠ []) :
    ∃ c, db₂.openCaseForNode node = some c ∧
      c.cause = groupCause (Group.addAll {} (db.signalsAt timeout node)).causes ∧
      c.customersAffected = db.model.customersAffected node := by
  have hsignals : db.signalsAt timeout node ≠ [] := by
    obtain ⟨s, hs⟩ := List.exists_mem_of_ne_nil _ hremains
    exact List.ne_nil_of_mem (remaining_subset db node hs)
  obtain ⟨c, hc, hcause, hcustomers, -⟩ :=
    h.serves.served node _ (mem_groups.mpr ⟨hsignals, rfl⟩) hnode
  rw [h.serves.model] at hcustomers
  by_cases hlinked : ∃ r ∈ db.newReports, given (db.model.reportRoot r) = some node
  · obtain ⟨r, hr, hroot⟩ := hlinked
    obtain ⟨hraw, hnamed⟩ := given_eq_some hroot
    rw [OmsDb.remaining, if_neg hnamed, List.append_nil] at hremains
    obtain ⟨s, hs⟩ := List.exists_mem_of_ne_nil _ hremains
    have hmixed : groupCause (Group.addAll {} (db.signalsAt timeout node)).causes = .mixed := by
      refine groupCause_mixed (a := s.cause) (b := .manual) ?_ ?_ (darkAt_cause hs)
      · refine mem_causes_group.mpr ⟨s, ?_, rfl⟩
        rw [signalsAt_eq]
        exact List.mem_append_left _ hs
      · exact mem_causes_group.mpr ⟨_, signalsAt_of_report timeout hr hraw, rfl⟩
    obtain ⟨c₂, hc₂, hcorr⟩ := h.links.case_some hc
    refine ⟨c₂, hc₂, ?_, hcorr.customersAffected.trans hcustomers⟩
    rw [hcorr.mixed (hcause.trans hmixed), hmixed]
  · have hsame := h.links.untouched node fun r hr hroot =>
      hlinked ⟨r, hr, h.serves.model ▸ hroot⟩
    exact ⟨c, hsame.trans hc, hcause, hcustomers⟩

theorem Swept.older (h : Swept timeout db db₁ db₂ db₃) (node : String) :
    (db₂.view node).older = (db.view node).older :=
  (h.links.older node).trans (h.serves.older node)

/-- When the case of a section is restored, the next one that survives takes its
place. -/
theorem Swept.nextCase (h : Swept timeout db db₁ db₂ db₃) {node : String} {c : CaseRow}
    (hc : db₂.openCaseForNode node = some c)
    (hback : db₂.model.areBack timeout (db₂.attachedAt node) = true) :
    db₃.openCaseForNode node = db.nextCase timeout node := by
  have hmodel : db₂.model = db.model := h.links.model.trans h.serves.model
  rw [OmsDb.attachedAt_of_open hc] at hback
  have hskip : ((db₂.cases.filter (openAt node)).filter fun d =>
      !db₂.model.areBack timeout (db₂.devicesOf d.caseId)) =
      (db₂.openBut node (some c.caseId)).filter fun d =>
        !db₂.model.areBack timeout (db₂.devicesOf d.caseId) := by
    rw [OmsDb.openBut, List.filter_filter (l := db₂.cases.filter (openAt node))]
    refine List.filter_congr fun d _ => ?_
    by_cases hid : d.caseId = c.caseId
    · rw [hid, hback]
      rfl
    · simp [hid]
  rw [OmsDb.openCaseForNode, h.restores.opens, hskip, OmsDb.nextCase, ← h.older node, OmsDb.view,
    hc, Option.map_some, List.filter_map, List.map_map, hmodel]
  exact congrArg latestDetected (List.map_id _).symm

/-- A section is served after a sweep if and only if it is resettled. -/
theorem Swept.served_iff (h : Swept timeout db db₁ db₂ db₃) {node : String}
    (hnode : node ≠ "UNKNOWN") (hremains : db.remaining timeout node ≠ []) :
    Served db₃ node (Group.addAll {} (db.remaining timeout node)) ↔
      db.Resettled timeout node := by
  obtain ⟨c, hc, hcause, hcustomers⟩ := h.case hnode hremains
  have hdevices₃ : ∀ id, db₃.devicesOf id = db₂.devicesOf id :=
    OmsDb.devicesOf_congr h.restores.caseMeters
  rw [OmsDb.Resettled, ← h.areBack timeout node]
  cases hback : db₂.model.areBack timeout (db₂.attachedAt node) with
  | false =>
      rw [if_pos rfl]
      have hopen : db₃.openCaseForNode node = some c := by
        rw [OmsDb.openCaseForNode, h.restores.opens]
        refine latestDetected_filter hc ?_
        rw [OmsDb.attachedAt_of_open hc] at hback
        rw [hback]
        rfl
      have hsubset : (Group.addAll {} (db.remaining timeout node)).devices ⊆
          db₃.attachedAt node := by
        intro dev hdev
        rw [Group.mem_devices_addAll] at hdev
        obtain ⟨s, hs, hgiven⟩ := hdev.resolve_left List.not_mem_nil
        rw [OmsDb.attachedAt_of_open hopen, hdevices₃, ← OmsDb.attachedAt_of_open hc,
          h.links.attachedAt, h.serves.attached timeout]
        exact Or.inr ⟨hnode, s, remaining_subset db node hs, hgiven⟩
      rw [Served, h.model]
      constructor
      · rintro ⟨d, hd, hdcause, -⟩
        rw [hopen] at hd
        injection hd with hd
        exact hcause.symm.trans (hd ▸ hdcause)
      · intro heq
        exact ⟨c, hopen, hcause.trans heq, hcustomers, hsubset⟩
  | true =>
      rw [if_neg (by decide), Served, h.nextCase hc hback, h.model]
      refine exists_congr fun d => and_congr_right fun hd => ?_
      have hattached : db₃.attachedAt node = db.devicesOf d.caseId := by
        rw [OmsDb.attachedAt_of_open ((h.nextCase hc hback).trans hd), hdevices₃]
        obtain ⟨o, ho, rfl⟩ := List.mem_map.mp (latestDetected_spec hd).1
        have holder := (List.mem_filter.mp ho).1
        have holder₂ := holder
        rw [← h.older node] at holder₂
        obtain ⟨e, -, he⟩ := List.mem_map.mp holder
        obtain ⟨e₂, -, he₂⟩ := List.mem_map.mp holder₂
        rw [← he] at he₂ ⊢
        injection he₂ with hcase hdevs
        rw [← hdevs, hcase]
      rw [hattached]

end After

/-- **Sweeping twice.** A second sweep leaves what the first has left as it is if
and only if the first does not complete, or every section with signals that
remain is resettled. -/
theorem sweep_again (w w' : Moment) (db : OmsDb) :
    (sweep timeout w' (sweep timeout w db).2).2 = (sweep timeout w db).2 ↔
      (Placed timeout db.model → ∀ kg ∈ db.groups timeout, kg.1 ≠ "UNKNOWN" →
        db.remaining timeout kg.1 ≠ [] → db.Resettled timeout kg.1) := by
  by_cases hplaced : Placed timeout db.model
  · obtain ⟨result, done, db₁, db₂, db₃, hsweep, -, -, h⟩ := run_sweep timeout w hplaced
    rw [hsweep, sweep_idle_iff h.quiet (h.model ▸ hplaced) w']
    simp only [hplaced, true_imp_iff]
    constructor
    · intro hserved kg _ hnode hremains
      refine (h.served_iff hnode hremains).mp
        (hserved (kg.1, Group.addAll {} (db.remaining timeout kg.1)) ?_ hnode)
      rw [mem_groups, h.signalsAt hnode]
      exact ⟨hremains, rfl⟩
    · intro hsettled kg hkg hnode
      have hgroup := mem_groups.mp hkg
      rw [h.signalsAt hnode] at hgroup
      obtain ⟨hremains, hg⟩ := hgroup
      rw [hg]
      have hsignals : db.signalsAt timeout kg.1 ≠ [] := fun hnil =>
        hremains (List.subset_nil.mp (hnil ▸ remaining_subset db kg.1))
      exact (h.served_iff hnode hremains).mpr (hsettled
        (kg.1, Group.addAll {} (db.signalsAt timeout kg.1)) (mem_groups.mpr ⟨hsignals, rfl⟩)
        hnode hremains)
  · obtain ⟨e, db₁, hsweep, -, hagain⟩ := run_sweep_aborts timeout w hplaced
    rw [hsweep]
    exact iff_of_true (hagain w') fun h => absurd h hplaced

/-- A last gasp and a call about the same section make a mixed case. The second
sweep no longer sees the call, and the cause is the last gasp. -/
theorem sweep_forgets_call :
    let db := pilotOms (gasping ["METER001"]) [] []
      [{ reportId := "r1", nodeId := some "ND-METER001" }]
    (sweep 180 counting (sweep 180 counting db).2).2 ≠ (sweep 180 counting db).2 := by
  intro db h
  exact absurd (congrArg OmsDb.cases h) (by decide +kernel)

end DiepLab.Oms
