import DiepLab.Oms.Signals

/-!
The first phase of a sweep.

`upsertCase` opens or extends the case of a section. `Upserts` says what it does
to the database when it runs alone, `Serves` what all groups together do. A
section that is served already is left as it is, and so is every other one; a
section that is no node of the network model ends the sweep.
-/

namespace DiepLab.Oms

open StatementProgram

/-! ### The latest open case -/

theorem latestDetected_eq_none {rows : List CaseRow} : latestDetected rows = none ↔ rows = [] := by
  cases rows with
  | nil => exact ⟨fun _ => rfl, fun _ => rfl⟩
  | cons c rest =>
      rw [latestDetected]
      cases latestDetected rest with
      | none => simp
      | some d =>
          dsimp only
          split <;> simp

theorem latestDetected_spec {rows : List CaseRow} {c : CaseRow} (h : latestDetected rows = some c) :
    c ∈ rows ∧ ∀ d ∈ rows, d.detectedAt ≤ c.detectedAt := by
  induction rows generalizing c with
  | nil => exact nomatch h
  | cons a rest ih =>
      rw [latestDetected] at h
      cases hrest : latestDetected rest with
      | none =>
          rw [hrest] at h
          injection h with h
          subst h
          rw [latestDetected_eq_none.mp hrest]
          exact ⟨List.mem_cons_self, by simp⟩
      | some d =>
          obtain ⟨hd, hmax⟩ := ih hrest
          rw [hrest] at h
          dsimp only at h
          split at h
          · rename_i hle
            injection h with h
            subst h
            exact ⟨List.mem_cons_self,
              List.forall_mem_cons.mpr ⟨le_refl _, fun e he => (hmax e he).trans hle⟩⟩
          · rename_i hlt
            injection h with h
            subst h
            exact ⟨List.mem_cons_of_mem _ hd,
              List.forall_mem_cons.mpr ⟨(not_le.mp hlt).le, hmax⟩⟩

/-- The latest row stays the latest when others are removed. -/
theorem latestDetected_filter {rows : List CaseRow} {c : CaseRow} {p : CaseRow → Bool}
    (h : latestDetected rows = some c) (hp : p c = true) :
    latestDetected (rows.filter p) = some c := by
  induction rows generalizing c with
  | nil => exact nomatch h
  | cons a rest ih =>
      rw [latestDetected] at h
      cases hrest : latestDetected rest with
      | none =>
          rw [hrest] at h
          injection h with h
          subst h
          rw [List.filter_cons_of_pos hp, latestDetected_eq_none.mp hrest]
          rfl
      | some d =>
          rw [hrest] at h
          dsimp only at h
          split at h
          · rename_i hle
            injection h with h
            subst h
            rw [List.filter_cons_of_pos hp, latestDetected]
            cases hkept : latestDetected (rest.filter p) with
            | none => rfl
            | some e =>
                have he := (List.mem_filter.mp (latestDetected_spec hkept).1).1
                exact if_pos (((latestDetected_spec hrest).2 e he).trans hle)
          · rename_i hlt
            injection h with h
            subst h
            by_cases ha : p a = true
            · rw [List.filter_cons_of_pos ha, latestDetected, ih hrest hp]
              exact if_neg hlt
            · rw [List.filter_cons_of_neg ha]
              exact ih hrest hp

theorem latestDetected_map {f : CaseRow → CaseRow} (hf : ∀ c, (f c).detectedAt = c.detectedAt)
    (rows : List CaseRow) : latestDetected (rows.map f) = (latestDetected rows).map f := by
  induction rows with
  | nil => rfl
  | cons a rest ih =>
      rw [List.map_cons, latestDetected, ih, latestDetected]
      cases latestDetected rest with
      | none => rfl
      | some d =>
          simp only [Option.map_some, hf]
          split <;> rfl

theorem openAt_iff {node : String} {c : CaseRow} :
    openAt node c = true ↔ c.affectedNodeId = some node ∧ isOpen c.status = true := by
  simp [openAt]

namespace OmsDb

variable {db : OmsDb}

/-- The meters attached to a case. -/
def devicesOf (db : OmsDb) (caseId : String) : List String :=
  (db.metersOf caseId).map CaseMeter.meterDeviceId

/-- The meters attached to the open case of a node. -/
def attachedAt (db : OmsDb) (node : String) : List String :=
  match db.openCaseForNode node with
  | some c => db.devicesOf c.caseId
  | none => []

theorem eq_of_caseId {c d : CaseRow} (hc : c ∈ db.cases) (hd : d ∈ db.cases)
    (h : c.caseId = d.caseId) : c = d :=
  List.inj_on_of_nodup_map db.case_key hc hd h

theorem openCaseForNode_spec {node : String} {c : CaseRow}
    (h : db.openCaseForNode node = some c) : c ∈ db.cases ∧ openAt node c = true :=
  List.mem_filter.mp (latestDetected_spec h).1

theorem openCaseForNode_eq_none {node : String} :
    db.openCaseForNode node = none ↔ ∀ c ∈ db.cases, ¬ openAt node c = true := by
  rw [openCaseForNode, latestDetected_eq_none, List.filter_eq_nil_iff]

theorem find?_caseId {c : CaseRow} (hc : c ∈ db.cases) :
    (db.cases.find? fun d => d.caseId = c.caseId) = some c := by
  cases hfind : db.cases.find? fun d => d.caseId = c.caseId with
  | none =>
      have hnot := List.find?_eq_none.mp hfind c hc
      simp at hnot
  | some d =>
      have hd := List.find?_some hfind
      rw [eq_of_caseId (List.mem_of_find?_eq_some hfind) hc (by simpa using hd)]

theorem mem_caseIds {c : CaseRow} (hc : c ∈ db.cases) : c.caseId ∈ db.caseIds :=
  List.mem_map_of_mem hc

/-- An update that leaves the case as open as it was. -/
theorem openCaseForNode_updateCase {caseId : String} {now : ℕ} {u : CaseSet}
    (hkeep : ∀ c ∈ db.cases, c.caseId = caseId → isOpen (u.apply now c).status = isOpen c.status)
    (node : String) :
    (db.updateCase caseId now u).openCaseForNode node =
      (db.openCaseForNode node).map fun c => if c.caseId = caseId then u.apply now c else c := by
  have hdetected : ∀ c, (if c.caseId = caseId then u.apply now c else c).detectedAt =
      c.detectedAt := by
    intro c
    split
    · exact (u.apply_keeps now c).2.2
    · rfl
  have hopen : ∀ c ∈ db.cases,
      openAt node (if c.caseId = caseId then u.apply now c else c) = openAt node c := by
    intro c hc
    split
    · rw [openAt, openAt, (u.apply_keeps now c).2.1, hkeep c hc ‹_›]
    · rfl
  rw [openCaseForNode, openCaseForNode, ← latestDetected_map hdetected]
  simp only [updateCase, updateRows, List.filter_map]
  exact congrArg latestDetected (congrArg _ (List.filter_congr hopen))

/-- An update that changes nothing. -/
theorem updateCase_eq_self {c : CaseRow} {now : ℕ} {u : CaseSet} (hc : c ∈ db.cases)
    (hu : u.apply now c = c) : db.updateCase c.caseId now u = db := by
  have hrows : updateRows c.caseId (u.apply now) db.cases = db.cases := by
    rw [updateRows]
    refine (List.map_congr_left fun d hd => ?_).trans (List.map_id _)
    split
    · rename_i hid
      rw [eq_of_caseId hd hc hid, hu]
      rfl
    · rfl
  simp only [updateCase, hrows]

end OmsDb

/-! ### Attaching meters -/

/-- What attaching meters to a case does. -/
structure Attaches (caseId : String) (devs : List String) (db db' : OmsDb) : Prop where
  model : db'.model = db.model
  cases : db'.cases = db.cases
  reports : db'.reports = db.reports
  others : ∀ id, id ≠ caseId → db'.metersOf id = db.metersOf id
  devices : ∀ dev, dev ∈ db'.devicesOf caseId ↔ dev ∈ db.devicesOf caseId ∨ dev ∈ devs
  idle : devs ⊆ db.devicesOf caseId → db' = db

theorem Attaches.refl (caseId : String) (db : OmsDb) : Attaches caseId [] db db :=
  ⟨rfl, rfl, rfl, fun _ _ => rfl, fun _ => by simp, fun _ => rfl⟩

/-- The meters of a group that the schema admits. -/
def Attachable (m : Model) (meters : Dict (Option String)) : Prop :=
  ∀ dm ∈ meters, dm.1 ∈ m.deviceIds ∧ refers m.nodeIds dm.2

section Upsert

variable (w : Moment)

theorem attaches_insert {db : OmsDb} {caseId dev : String} {mnode : Option String}
    (hcase : caseId ∈ db.caseIds) (hdev : dev ∈ db.model.deviceIds)
    (hnode : refers db.model.nodeIds mnode) :
    ∃ db', db.insertCaseMeter ⟨caseId, dev, mnode⟩ = (.ok (), db') ∧
      Attaches caseId [dev] db db' := by
  unfold OmsDb.insertCaseMeter
  split
  · rename_i hthere
    refine ⟨db, rfl, rfl, rfl, rfl, fun _ _ => rfl, fun d => ⟨Or.inl, fun h => ?_⟩, fun _ => rfl⟩
    rcases h with h | h
    · exact h
    · exact List.mem_singleton.mp h ▸ hthere
  · rename_i hnew
    refine ⟨_, rfl, rfl, rfl, rfl, fun id hid => ?_, fun d => ?_, fun h => ?_⟩
    · simp only [OmsDb.metersOf, List.filter_append]
      rw [List.filter_cons_of_neg (by simpa using Ne.symm hid), List.filter_nil, List.append_nil]
    · simp [OmsDb.devicesOf, OmsDb.metersOf, List.filter_append]
    · exact absurd (h List.mem_cons_self) hnew

theorem Attaches.trans {caseId : String} {devs devs' : List String} {a b c : OmsDb}
    (hab : Attaches caseId devs a b) (hbc : Attaches caseId devs' b c) :
    Attaches caseId (devs ++ devs') a c where
  model := hbc.model.trans hab.model
  cases := hbc.cases.trans hab.cases
  reports := hbc.reports.trans hab.reports
  others id hid := (hbc.others id hid).trans (hab.others id hid)
  devices dev := by rw [hbc.devices, hab.devices, List.mem_append, or_assoc]
  idle h := by
    rw [List.append_subset] at h
    have hb := hab.idle h.1
    exact (hbc.idle (hb ▸ h.2)).trans hb

theorem run_attachMeters {caseId : String} {meters : Dict (Option String)} {db : OmsDb}
    (hcase : caseId ∈ db.caseIds) (hmeters : Attachable db.model meters) :
    ∃ db', (attachMeters caseId meters).run (alone w) db = (.ok (), db') ∧
      Attaches caseId (meters.map Prod.fst) db db' := by
  induction meters generalizing db with
  | nil => exact ⟨db, rfl, .refl caseId db⟩
  | cons dm rest ih =>
      obtain ⟨hdm, hrest⟩ := List.forall_mem_cons.mp hmeters
      obtain ⟨db₁, hinsert, h₁⟩ := attaches_insert hcase hdm.1 hdm.2
      have hcase₁ : caseId ∈ db₁.caseIds := by
        rw [OmsDb.caseIds, h₁.cases]
        exact hcase
      have hrest₁ : Attachable db₁.model rest := h₁.model ▸ hrest
      obtain ⟨db₂, hrun, h₂⟩ := ih hcase₁ hrest₁
      refine ⟨db₂, ?_, h₁.trans h₂⟩
      rw [attachMeters, Prog.run_bind, Prog.run_call, alone_eq]
      simp only [omsExec]
      rw [hinsert]
      exact hrun

/-! ### Serving a section -/

/-- What the open case of a section becomes, or the new one, before its meters
are attached. -/
structure Opens (key : String) (cause : Cause) (customersAffected : ℕ) (c : CaseRow)
    (db db' : OmsDb) : Prop where
  model : db'.model = db.model
  reports : db'.reports = db.reports
  caseMeters : db'.caseMeters = db.caseMeters
  case : db'.openCaseForNode key = some c
  cause : c.cause = cause
  customersAffected : c.customersAffected = customersAffected
  /-- The case that was open stays the one that is. -/
  kept : ∀ c₀, db.openCaseForNode key = some c₀ → c.caseId = c₀.caseId
  opened : db.openCaseForNode key = none → c.caseId ∉ db.caseIds
  node : ∀ d ∈ db.cases, d.caseId = c.caseId → d.affectedNodeId = some key
  rest : (db'.cases.filter fun d => d.caseId ≠ c.caseId) =
    db.cases.filter fun d => d.caseId ≠ c.caseId

/-- An update is not seen where its row is filtered out. -/
theorem filter_updateRows {caseId : String} {f : CaseRow → CaseRow} {p : CaseRow → Bool}
    {rows : List CaseRow}
    (hp : ∀ c ∈ rows, c.caseId = caseId → p c = false ∧ p (f c) = false) :
    (updateRows caseId f rows).filter p = rows.filter p := by
  induction rows with
  | nil => rfl
  | cons c rows ih =>
      obtain ⟨hc, hrows⟩ := List.forall_mem_cons.mp hp
      rw [updateRows, List.map_cons, List.filter_cons, List.filter_cons]
      split
      · rename_i hid
        rw [(hc hid).1, (hc hid).2]
        exact ih hrows
      · exact congrArg (fun rest => if p c = true then c :: rest else rest) (ih hrows)

theorem opens_refresh {db : OmsDb} {key : String} {c₀ : CaseRow}
    (h : db.openCaseForNode key = some c₀) (now : ℕ) (cause : Cause) (customersAffected : ℕ) :
    Opens key cause customersAffected
      { c₀ with customersAffected := customersAffected, cause := cause } db
      (db.updateCase c₀.caseId now (.impact customersAffected cause)) where
  model := rfl
  reports := rfl
  caseMeters := rfl
  case := by
    rw [OmsDb.openCaseForNode_updateCase (fun _ _ _ => rfl), h, Option.map_some, if_pos rfl]
    rfl
  cause := rfl
  customersAffected := rfl
  kept c hc := by
    rw [h] at hc
    injection hc with hc
    rw [hc]
  opened hnone := by rw [h] at hnone; cases hnone
  node d hd hid := by
    obtain ⟨hc₀, hopen⟩ := OmsDb.openCaseForNode_spec h
    rw [OmsDb.eq_of_caseId hd hc₀ hid]
    exact (openAt_iff.mp hopen).1
  rest := filter_updateRows fun d _ hid => by simp [CaseSet.apply, hid]

theorem opens_insert {db : OmsDb} {key : String} (h : db.openCaseForNode key = none)
    (hkey : key ∈ db.model.nodeIds) {c : CaseRow} (hfresh : c.caseId ∉ db.caseIds)
    (hnode : c.affectedNodeId = some key) (hopen : isOpen c.status = true) :
    ∃ db', db.insertCase c = (.ok (), db') ∧ Opens key c.cause c.customersAffected c db db' := by
  have hrefers : refers db.model.nodeIds c.affectedNodeId := by
    intro k hk
    rw [hnode] at hk
    injection hk with hk
    exact hk ▸ hkey
  unfold OmsDb.insertCase
  rw [dif_neg hfresh, dif_pos hrefers]
  refine ⟨_, rfl, rfl, rfl, rfl, ?_, rfl, rfl, fun c₀ hc₀ => ?_, fun _ => hfresh,
    fun d hd hid => ?_, ?_⟩
  · have hat : openAt key c = true := openAt_iff.mpr ⟨hnode, hopen⟩
    rw [OmsDb.openCaseForNode, latestDetected_eq_none] at h
    rw [OmsDb.openCaseForNode, List.filter_append, h, List.filter_cons_of_pos hat]
    rfl
  · rw [h] at hc₀
    cases hc₀
  · exact absurd (hid ▸ OmsDb.mem_caseIds hd) hfresh
  · rw [List.filter_append, List.filter_cons_of_neg (by simp), List.filter_nil, List.append_nil]

theorem run_refreshOrOpen {db : OmsDb} {key : String} (hkey : key ∈ db.model.nodeIds)
    (cause : Cause) (customersAffected : ℕ) :
    ∃ c created db', (refreshOrOpen key cause customersAffected).run (alone w) db =
        (.ok (c.caseId, created), db') ∧ Opens key cause customersAffected c db db' := by
  rw [refreshOrOpen, Prog.run_bind, Prog.run_call, alone_eq]
  simp only [omsExec]
  cases h : db.openCaseForNode key with
  | some c₀ =>
      refine ⟨_, false, _, ?_, opens_refresh h w.now cause customersAffected⟩
      simp only [Prog.run_bind, Prog.run_call, alone_eq, omsExec, Prog.run_pure]
  | none =>
      obtain ⟨db', hinsert, hopens⟩ := opens_insert (c := {
        caseId := w.uuid4 db
        status := .DETECTED
        cause := cause
        affectedNodeId := some key
        customersAffected := customersAffected
        detectedAt := w.now
        networkModelVersion := db.model.modelVersion }) h hkey (w.fresh db) rfl rfl
      refine ⟨_, true, db', ?_, hopens⟩
      simp only [Prog.run_bind, Prog.run_call, alone_eq, omsExec, hinsert, Prog.run_pure]

/-- What `_upsert_case` does for a section and its group; `c` is the case. -/
structure Upserts (key : String) (g : Group) (c : CaseRow) (db db' : OmsDb) : Prop where
  model : db'.model = db.model
  reports : db'.reports = db.reports
  case : db'.openCaseForNode key = some c
  cause : c.cause = groupCause g.causes
  customersAffected : c.customersAffected = db.model.customersAffected key
  kept : ∀ c₀, db.openCaseForNode key = some c₀ → c.caseId = c₀.caseId
  opened : db.openCaseForNode key = none → c.caseId ∉ db.caseIds
  node : ∀ d ∈ db.cases, d.caseId = c.caseId → d.affectedNodeId = some key
  rest : (db'.cases.filter fun d => d.caseId ≠ c.caseId) =
    db.cases.filter fun d => d.caseId ≠ c.caseId
  others : ∀ id, id ≠ c.caseId → db'.metersOf id = db.metersOf id
  devices : ∀ dev, dev ∈ db'.devicesOf c.caseId ↔ dev ∈ db.attachedAt key ∨ dev ∈ g.devices

/-- A case of which nobody has heard has no meters. -/
theorem OmsDb.devicesOf_fresh {db : OmsDb} {caseId : String} (h : caseId ∉ db.caseIds) :
    db.devicesOf caseId = [] := by
  rw [devicesOf, metersOf, List.map_eq_nil_iff, List.filter_eq_nil_iff]
  intro m hm hid
  have hid' : m.caseId = caseId := by simpa using hid
  exact h (hid' ▸ db.caseMeter_case m hm)

theorem OmsDb.devicesOf_congr {a b : OmsDb} (h : a.caseMeters = b.caseMeters) (caseId : String) :
    a.devicesOf caseId = b.devicesOf caseId := by
  rw [devicesOf, devicesOf, metersOf, metersOf, h]

theorem Opens.attachedAt {key : String} {cause : Cause} {customersAffected : ℕ} {c : CaseRow}
    {db db' : OmsDb} (h : Opens key cause customersAffected c db db') :
    db'.devicesOf c.caseId = db.attachedAt key := by
  rw [OmsDb.devicesOf_congr h.caseMeters, OmsDb.attachedAt]
  cases hopen : db.openCaseForNode key with
  | none => exact OmsDb.devicesOf_fresh (h.opened hopen)
  | some c₀ => rw [h.kept c₀ hopen]

theorem run_upsertCase {db : OmsDb} {key : String} {g : Group} (hkey : key ∈ db.model.nodeIds)
    (hg : Attachable db.model g.meters) :
    ∃ c created db', (upsertCase key g).run (alone w) db = (.ok (some c, created), db') ∧
      Upserts key g c db db' := by
  obtain ⟨c, created, db₁, hopen, h₁⟩ := run_refreshOrOpen w hkey (groupCause g.causes)
    (db.model.customersAffected key)
  have hc := OmsDb.openCaseForNode_spec h₁.case
  have hg₁ : Attachable db₁.model g.meters := h₁.model ▸ hg
  obtain ⟨db₂, hattach, h₂⟩ := run_attachMeters w (OmsDb.mem_caseIds hc.1) hg₁
  refine ⟨c, created, db₂, ?_, ?_⟩
  · have hcase : (db₂.cases.find? fun d => d.caseId = c.caseId) = some c := by
      rw [h₂.cases]
      exact OmsDb.find?_caseId hc.1
    rw [upsertCase, Prog.run_bind, run_sectionServicePoints]
    dsimp only
    rw [Prog.run_bind, hopen]
    dsimp only
    rw [Prog.run_bind, hattach]
    simp only [Prog.run_bind, Prog.run_call, alone_eq, omsExec, hcase, Prog.run_pure]
  · exact {
      model := h₂.model.trans h₁.model
      reports := h₂.reports.trans h₁.reports
      case := by
        rw [OmsDb.openCaseForNode, h₂.cases]
        exact h₁.case
      cause := h₁.cause
      customersAffected := h₁.customersAffected
      kept := h₁.kept
      opened := h₁.opened
      node := h₁.node
      rest := by rw [h₂.cases, h₁.rest]
      others := fun id hid => by
        rw [h₂.others id hid, OmsDb.metersOf, OmsDb.metersOf, h₁.caseMeters]
      devices := fun dev => by rw [h₂.devices, h₁.attachedAt, Group.devices] }

/-- A section whose case is as its group would have it. -/
def Served (db : OmsDb) (key : String) (g : Group) : Prop :=
  ∃ c, db.openCaseForNode key = some c ∧ c.cause = groupCause g.causes ∧
    c.customersAffected = db.model.customersAffected key ∧ g.devices ⊆ db.attachedAt key

theorem OmsDb.attachedAt_of_open {db : OmsDb} {node : String} {c : CaseRow}
    (h : db.openCaseForNode node = some c) : db.attachedAt node = db.devicesOf c.caseId := by
  rw [attachedAt, h]

/-- A section that is served is left as it is. -/
theorem run_upsertCase_served {db : OmsDb} {key : String} {g : Group}
    (hg : Attachable db.model g.meters) (h : Served db key g) :
    ∃ c, (upsertCase key g).run (alone w) db = (.ok (some c, false), db) := by
  obtain ⟨c, hopen, hcause, hcustomers, hdevices⟩ := h
  rw [OmsDb.attachedAt_of_open hopen] at hdevices
  obtain ⟨hc, -⟩ := OmsDb.openCaseForNode_spec hopen
  refine ⟨c, ?_⟩
  have hsame : db.updateCase c.caseId w.now
      (.impact (db.model.customersAffected key) (groupCause g.causes)) = db := by
    refine OmsDb.updateCase_eq_self hc ?_
    rw [CaseSet.apply, ← hcause, ← hcustomers]
  have hrefresh : (refreshOrOpen key (groupCause g.causes)
      (db.model.customersAffected key)).run (alone w) db = (.ok (c.caseId, false), db) := by
    rw [refreshOrOpen, Prog.run_bind, Prog.run_call, alone_eq]
    simp only [omsExec, hopen, Prog.run_bind, Prog.run_call, alone_eq, hsame, Prog.run_pure]
  obtain ⟨db', hattach, hattaches⟩ := run_attachMeters w (OmsDb.mem_caseIds hc) hg
  rw [hattaches.idle hdevices] at hattach
  rw [upsertCase, Prog.run_bind, run_sectionServicePoints]
  dsimp only
  rw [Prog.run_bind, hrefresh]
  dsimp only
  rw [Prog.run_bind, hattach]
  simp only [Prog.run_bind, Prog.run_call, alone_eq, omsExec, OmsDb.find?_caseId hc, Prog.run_pure]

/-- A section that is no node of the model cannot be served. -/
theorem run_upsertCase_unknown {db : OmsDb} {key : String} (g : Group)
    (hkey : key ∉ db.model.nodeIds) :
    ∃ e, (upsertCase key g).run (alone w) db = (.error e, db) := by
  have hnone : db.openCaseForNode key = none := by
    rw [OmsDb.openCaseForNode_eq_none]
    exact fun c hc hopen => hkey (db.case_node c hc key (openAt_iff.mp hopen).1)
  have hrefers : ¬ refers db.model.nodeIds (some key) := fun h => hkey (h key rfl)
  refine ⟨violates "outage_cases_affected_node_id_fkey", ?_⟩
  rw [upsertCase, Prog.run_bind, run_sectionServicePoints]
  simp only [refreshOrOpen, Prog.run_bind, Prog.run_call, alone_eq, omsExec, hnone,
    OmsDb.insertCase]
  rw [dif_neg (w.fresh db), dif_neg hrefers]

/-! ### A section -/

/-- What the OMS tables say about a section: its latest open case, the meters
attached to it, and its other open cases with theirs. -/
structure SectionView where
  case : Option CaseRow
  devices : List String
  older : List (CaseRow × List String)

/-- The open cases of a node but for one. -/
def OmsDb.openBut (db : OmsDb) (node : String) (caseId : Option String) : List CaseRow :=
  (db.cases.filter (openAt node)).filter fun d => some d.caseId ≠ caseId

def OmsDb.view (db : OmsDb) (node : String) : SectionView where
  case := db.openCaseForNode node
  devices := db.attachedAt node
  older := (db.openBut node ((db.openCaseForNode node).map CaseRow.caseId)).map fun d =>
    (d, db.devicesOf d.caseId)

theorem OmsDb.devicesOf_eq {a b : OmsDb} {caseId : String}
    (h : a.metersOf caseId = b.metersOf caseId) : a.devicesOf caseId = b.devicesOf caseId := by
  rw [devicesOf, devicesOf, h]

section Upserts

variable {w} {key : String} {g : Group} {c : CaseRow} {db db' : OmsDb}

theorem Upserts.openBut_eq (h : Upserts key g c db db') (node : String)
    (hnode : node ≠ key) (caseId : Option String) :
    db'.openBut node caseId = db.openBut node caseId := by
  have hskip : ∀ rows : List CaseRow,
      (∀ d ∈ rows, d.caseId = c.caseId → d.affectedNodeId = some key) →
      rows.filter (openAt node) =
        (rows.filter fun d => d.caseId ≠ c.caseId).filter (openAt node) := by
    intro rows hrows
    rw [List.filter_filter]
    refine List.filter_congr fun d hd => ?_
    by_cases hid : d.caseId = c.caseId
    · have hnot : openAt node d = false := by
        rw [Bool.eq_false_iff]
        intro hopen
        have hat := (openAt_iff.mp hopen).1
        rw [hrows d hd hid] at hat
        injection hat with hat
        exact hnode hat.symm
      simp [hnot]
    · simp [hid]
  have hnew : ∀ d ∈ db'.cases, d.caseId = c.caseId → d.affectedNodeId = some key := by
    intro d hd hid
    obtain ⟨hc, hopen⟩ := OmsDb.openCaseForNode_spec h.case
    rw [OmsDb.eq_of_caseId hd hc hid]
    exact (openAt_iff.mp hopen).1
  rw [OmsDb.openBut, OmsDb.openBut, hskip db'.cases hnew, hskip db.cases h.node, h.rest]

theorem openCaseForNode_eq_openBut (db : OmsDb) (node : String) :
    db.openCaseForNode node = latestDetected (db.openBut node none) := by
  rw [OmsDb.openCaseForNode, OmsDb.openBut]
  simp

theorem Upserts.view_of_ne (h : Upserts key g c db db') {node : String} (hnode : node ≠ key) :
    db'.view node = db.view node := by
  have hcase : db'.openCaseForNode node = db.openCaseForNode node := by
    rw [openCaseForNode_eq_openBut, openCaseForNode_eq_openBut, h.openBut_eq node hnode]
  have hdevices : ∀ d ∈ db.cases, openAt node d = true →
      db'.devicesOf d.caseId = db.devicesOf d.caseId := by
    intro d hd hopen
    refine OmsDb.devicesOf_eq (h.others _ fun hid => hnode ?_)
    have hat := (openAt_iff.mp hopen).1
    rw [h.node d hd hid] at hat
    injection hat with hat
    exact hat.symm
  rw [OmsDb.view, OmsDb.view, hcase, h.openBut_eq node hnode]
  congr 1
  · rw [OmsDb.attachedAt, OmsDb.attachedAt, hcase]
    cases hopen : db.openCaseForNode node with
    | none => rfl
    | some d =>
        obtain ⟨hd, hat⟩ := OmsDb.openCaseForNode_spec hopen
        exact hdevices d hd hat
  · refine List.map_congr_left fun d hd => ?_
    obtain ⟨hd, hat⟩ := List.mem_filter.mp (List.mem_filter.mp hd).1
    rw [hdevices d hd hat]

theorem Upserts.older (h : Upserts key g c db db') :
    (db'.view key).older = (db.view key).older := by
  have hbut : db'.openBut key (some c.caseId) = db.openBut key (some c.caseId) := by
    have hcomm : ∀ rows : List CaseRow,
        ((rows.filter (openAt key)).filter fun d => some d.caseId ≠ some c.caseId) =
          (rows.filter fun d => d.caseId ≠ c.caseId).filter (openAt key) := by
      intro rows
      rw [List.filter_filter, List.filter_filter]
      exact List.filter_congr fun d _ => by simp [Bool.and_comm]
    rw [OmsDb.openBut, OmsDb.openBut, hcomm, hcomm, h.rest]
  have hdevices : ∀ d ∈ db.openBut key (some c.caseId),
      db'.devicesOf d.caseId = db.devicesOf d.caseId := by
    intro d hd
    refine OmsDb.devicesOf_eq (h.others _ ?_)
    simpa using (List.mem_filter.mp hd).2
  have hsame : db.openBut key ((db.openCaseForNode key).map CaseRow.caseId) =
      db.openBut key (some c.caseId) := by
    cases hopen : db.openCaseForNode key with
    | some c₀ => rw [Option.map_some, h.kept c₀ hopen]
    | none =>
        have hnil : db.cases.filter (openAt key) = [] := latestDetected_eq_none.mp hopen
        rw [OmsDb.openBut, OmsDb.openBut, hnil]
        rfl
  simp only [OmsDb.view]
  rw [h.case, Option.map_some, hbut, hsame]
  exact List.map_congr_left fun d hd => by rw [hdevices d hd]

end Upserts

/-! ### The first phase -/

/-- What the first phase does for the groups. -/
structure Serves (groups : Dict Group) (db db' : OmsDb) : Prop where
  model : db'.model = db.model
  reports : db'.reports = db.reports
  untouched : ∀ key, (key ∉ groups.map Prod.fst ∨ key = "UNKNOWN") → db'.view key = db.view key
  served : ∀ key g, (key, g) ∈ groups → key ≠ "UNKNOWN" → Served db' key g
  kept : ∀ key g, (key, g) ∈ groups → key ≠ "UNKNOWN" → ∀ c c₀,
    db'.openCaseForNode key = some c → db.openCaseForNode key = some c₀ → c.caseId = c₀.caseId
  opened : ∀ key g, (key, g) ∈ groups → key ≠ "UNKNOWN" → ∀ c,
    db'.openCaseForNode key = some c → db.openCaseForNode key = none → c.caseId ∉ db.caseIds
  ids : ∀ caseId ∈ db.caseIds, caseId ∈ db'.caseIds
  devices : ∀ key g, (key, g) ∈ groups → key ≠ "UNKNOWN" → ∀ dev,
    dev ∈ db'.attachedAt key ↔ dev ∈ db.attachedAt key ∨ dev ∈ g.devices
  older : ∀ key, (db'.view key).older = (db.view key).older

/-- The groups can be served. -/
def Servable (m : Model) (groups : Dict Group) : Prop :=
  ∀ kg ∈ groups, kg.1 ≠ "UNKNOWN" → kg.1 ∈ m.nodeIds ∧ Attachable m kg.2.meters

theorem Serves.refl (db : OmsDb) : Serves [] db db :=
  ⟨rfl, rfl, fun _ _ => rfl, fun _ _ h => absurd h List.not_mem_nil,
    fun _ _ h => absurd h List.not_mem_nil, fun _ _ h => absurd h List.not_mem_nil,
    fun _ h => h, fun _ _ h => absurd h List.not_mem_nil, fun _ => rfl⟩

theorem Served.congr {a b : OmsDb} {key : String} {g : Group} (hmodel : b.model = a.model)
    (hview : b.view key = a.view key) (h : Served a key g) : Served b key g := by
  have hcase : b.openCaseForNode key = a.openCaseForNode key := congrArg SectionView.case hview
  have hdevices : b.attachedAt key = a.attachedAt key := congrArg SectionView.devices hview
  rw [Served, hcase, hdevices, hmodel]
  exact h

theorem Upserts.ids {key : String} {g : Group} {c : CaseRow} {db db' : OmsDb}
    (h : Upserts key g c db db') {caseId : String} (hid : caseId ∈ db.caseIds) :
    caseId ∈ db'.caseIds := by
  obtain ⟨d, hd, rfl⟩ := List.mem_map.mp hid
  by_cases heq : d.caseId = c.caseId
  · exact heq ▸ OmsDb.mem_caseIds (OmsDb.openCaseForNode_spec h.case).1
  · have hmem : d ∈ db'.cases.filter fun d => d.caseId ≠ c.caseId :=
      h.rest ▸ List.mem_filter.mpr ⟨hd, by simpa using heq⟩
    exact OmsDb.mem_caseIds (List.mem_filter.mp hmem).1

theorem Upserts.served {key : String} {g : Group} {c : CaseRow} {db db' : OmsDb}
    (h : Upserts key g c db db') : Served db' key g := by
  refine ⟨c, h.case, h.cause, by rw [h.model]; exact h.customersAffected, fun dev hdev => ?_⟩
  rw [OmsDb.attachedAt_of_open h.case]
  exact (h.devices dev).mpr (Or.inr hdev)

/-- The group named UNKNOWN is passed over. -/
theorem Serves.skip {groups : Dict Group} {g : Group} {db db' : OmsDb}
    (h : Serves groups db db') : Serves (("UNKNOWN", g) :: groups) db db' where
  model := h.model
  reports := h.reports
  untouched key hkey := by
    refine h.untouched key (hkey.imp_left fun hnot hmem => hnot ?_)
    exact List.mem_cons_of_mem _ hmem
  served key g' hmem hkey := by
    rcases List.mem_cons.mp hmem with heq | hmem
    · injection heq with heq
      exact absurd heq hkey
    · exact h.served key g' hmem hkey
  kept key g' hmem hkey := by
    rcases List.mem_cons.mp hmem with heq | hmem
    · injection heq with heq
      exact absurd heq hkey
    · exact h.kept key g' hmem hkey
  opened key g' hmem hkey := by
    rcases List.mem_cons.mp hmem with heq | hmem
    · injection heq with heq
      exact absurd heq hkey
    · exact h.opened key g' hmem hkey
  ids := h.ids
  devices key g' hmem hkey := by
    rcases List.mem_cons.mp hmem with heq | hmem
    · injection heq with heq
      exact absurd heq hkey
    · exact h.devices key g' hmem hkey
  older := h.older

theorem Serves.cons {groups : Dict Group} {key : String} {g : Group} {c : CaseRow}
    {db db₁ db₂ : OmsDb} (hkey : key ≠ "UNKNOWN") (hnew : key ∉ groups.map Prod.fst)
    (h₁ : Upserts key g c db db₁) (h₂ : Serves groups db₁ db₂) :
    Serves ((key, g) :: groups) db db₂ := by
  have hview : db₂.view key = db₁.view key := h₂.untouched key (Or.inl hnew)
  have hcase : db₂.openCaseForNode key = db₁.openCaseForNode key :=
    congrArg SectionView.case hview
  have hdevices : db₂.attachedAt key = db₁.attachedAt key := congrArg SectionView.devices hview
  have hother : ∀ k g', (k, g') ∈ groups → k ≠ key := by
    rintro k g' hmem rfl
    exact hnew (List.mem_map_of_mem hmem)
  refine ⟨h₂.model.trans h₁.model, h₂.reports.trans h₁.reports, fun k hk => ?_,
    fun k g' hmem hk => ?_, fun k g' hmem hk d d₀ hd hd₀ => ?_, fun k g' hmem hk d hd hnone => ?_,
    fun id hid => h₂.ids id (h₁.ids hid), fun k g' hmem hk dev => ?_, fun k => ?_⟩
  · have hne : k ≠ key := by
      rintro rfl
      exact hk.elim (fun h => h List.mem_cons_self) hkey
    rw [h₂.untouched k (hk.imp_left fun h hmem => h (List.mem_cons_of_mem _ hmem)),
      h₁.view_of_ne hne]
  · rcases List.mem_cons.mp hmem with heq | hmem
    · injection heq with hk' hg'
      subst hk' hg'
      exact h₁.served.congr h₂.model hview
    · exact h₂.served k g' hmem hk
  · rcases List.mem_cons.mp hmem with heq | hmem
    · injection heq with hk' hg'
      subst hk' hg'
      rw [hcase, h₁.case] at hd
      injection hd with hd
      exact hd ▸ h₁.kept d₀ hd₀
    · have hsame := congrArg SectionView.case (h₁.view_of_ne (hother k g' hmem))
      exact h₂.kept k g' hmem hk d d₀ hd (hsame.trans hd₀)
  · rcases List.mem_cons.mp hmem with heq | hmem
    · injection heq with hk' hg'
      subst hk' hg'
      rw [hcase, h₁.case] at hd
      injection hd with hd
      exact hd ▸ h₁.opened hnone
    · have hsame := congrArg SectionView.case (h₁.view_of_ne (hother k g' hmem))
      exact fun hid => h₂.opened k g' hmem hk d hd (hsame.trans hnone) (h₁.ids hid)
  · rcases List.mem_cons.mp hmem with heq | hmem
    · injection heq with hk' hg'
      subst hk' hg'
      rw [hdevices, OmsDb.attachedAt_of_open h₁.case]
      exact h₁.devices dev
    · rw [h₂.devices k g' hmem hk dev,
        show db₁.attachedAt k = db.attachedAt k from
          congrArg SectionView.devices (h₁.view_of_ne (hother k g' hmem))]
  · rw [h₂.older]
    by_cases hk : k = key
    · rw [hk, h₁.older]
    · rw [h₁.view_of_ne hk]

theorem run_upsertGroups {groups : Dict Group} (hnodup : (groups.map Prod.fst).Nodup)
    {db : OmsDb} (hgroups : Servable db.model groups) (done : Upserted) :
    ∃ done' db', (upsertGroups groups done).run (alone w) db = (.ok done', db') ∧
      Serves groups db db' := by
  induction groups generalizing db done with
  | nil => exact ⟨done, db, rfl, .refl db⟩
  | cons kg groups ih =>
      obtain ⟨key, g⟩ := kg
      obtain ⟨hnew, hrest⟩ := List.nodup_cons.mp hnodup
      obtain ⟨hfirst, hothers⟩ := List.forall_mem_cons.mp hgroups
      by_cases hkey : key = "UNKNOWN"
      · subst hkey
        obtain ⟨done', db', hrun, hserves⟩ := ih hrest hothers done
        refine ⟨done', db', ?_, hserves.skip⟩
        rw [upsertGroups, if_pos rfl]
        exact hrun
      -- what the first group has changed is not looked at by the others: their nodes differ
      · obtain ⟨hnode, hmeters⟩ := hfirst hkey
        obtain ⟨c, created, db₁, hupsert, h₁⟩ := run_upsertCase w hnode hmeters
        have hgroups₁ : Servable db₁.model groups := h₁.model ▸ hothers
        obtain ⟨done', db₂, hrun, h₂⟩ := ih hrest hgroups₁ (
          if created then { done with created := done.created ++ [c.caseId] }
          else { done with updated := done.updated ++ [c.caseId] })
        refine ⟨done', db₂, ?_, h₂.cons hkey hnew h₁⟩
        rw [upsertGroups, if_neg hkey, Prog.run_bind, hupsert]
        exact hrun

/-- When all sections are served, the first phase changes nothing. -/
theorem run_upsertGroups_served {groups : Dict Group} {db : OmsDb}
    (hgroups : Servable db.model groups)
    (hserved : ∀ kg ∈ groups, kg.1 ≠ "UNKNOWN" → Served db kg.1 kg.2) (done : Upserted) :
    ∃ done', (upsertGroups groups done).run (alone w) db = (.ok done', db) := by
  induction groups generalizing done with
  | nil => exact ⟨done, rfl⟩
  | cons kg groups ih =>
      obtain ⟨key, g⟩ := kg
      obtain ⟨hfirst, hgroups⟩ := List.forall_mem_cons.mp hgroups
      obtain ⟨hfirstServed, hserved⟩ := List.forall_mem_cons.mp hserved
      by_cases hkey : key = "UNKNOWN"
      · obtain ⟨done', hrun⟩ := ih hgroups hserved done
        refine ⟨done', ?_⟩
        rw [upsertGroups, if_pos hkey]
        exact hrun
      -- an open case that has all meters is only noted as updated
      · obtain ⟨c, hupsert⟩ := run_upsertCase_served w (hfirst hkey).2 (hfirstServed hkey)
        obtain ⟨done', hrun⟩ :=
          ih hgroups hserved { done with updated := done.updated ++ [c.caseId] }
        refine ⟨done', ?_⟩
        rw [upsertGroups, if_neg hkey, Prog.run_bind, hupsert]
        exact hrun

/-- A group that can not be served ends the sweep. -/
theorem run_upsertGroups_unknown {pre : Dict Group} {key : String} (g : Group)
    (post : Dict Group) (hkey : key ≠ "UNKNOWN") {db db' : OmsDb} {done done' : Upserted}
    (hpre : (upsertGroups pre done).run (alone w) db = (.ok done', db'))
    (hnode : key ∉ db'.model.nodeIds) :
    ∃ e, (upsertGroups (pre ++ (key, g) :: post) done).run (alone w) db = (.error e, db') := by
  induction pre generalizing db done with
  | nil =>
      obtain ⟨rfl, rfl⟩ : done = done' ∧ db = db' := by simpa [upsertGroups] using hpre
      -- the node of a new case is a foreign key
      obtain ⟨e, hupsert⟩ := run_upsertCase_unknown w g hnode
      refine ⟨e, ?_⟩
      rw [List.nil_append, upsertGroups, if_neg hkey, Prog.run_bind, hupsert]
  | cons kg pre ih =>
      obtain ⟨k, g'⟩ := kg
      rw [upsertGroups] at hpre
      rw [List.cons_append, upsertGroups]
      split at hpre
      · rename_i hk
        rw [if_pos hk]
        exact ih hpre
      · rename_i hk
        rw [if_neg hk]
        rw [Prog.run_bind] at hpre ⊢
        cases hupsert : (upsertCase k g').run (alone w) db with
        | mk r db₁ =>
            rw [hupsert] at hpre
            cases r with
            | error e => cases hpre
            | ok out =>
                obtain ⟨case, created⟩ := out
                cases case with
                | none => cases hpre
                | some c => exact ih hpre

end Upsert

end DiepLab.Oms
