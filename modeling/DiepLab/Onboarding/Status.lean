import DiepLab.Onboarding.Statements

/-!
How far a device has come.

The endpoints check the status when they read the row, and the update that
follows does not check it again. An approval that has found CERTIFIED can only
find a later status as long as no status falls back, so it is safe by itself.
`_advance_onboarding` is not: a validation that was slow takes back a
certification, and a certification that was slow an approval. `OnlyForward` is
the condition that its update would have to carry.
-/

namespace DiepLab.Onboarding

open StatementProgram

/-- Enrolled devices stay enrolled, and none falls back. -/
def StatusGrows (s s' : OnboardingStore) : Prop :=
  ∀ deviceId row, s.table.row? deviceId = some row →
    ∃ row', s'.table.row? deviceId = some row' ∧ row.status.rank ≤ row'.status.rank

/-- What is PRODUCTION_READY has been so before, or has been CERTIFIED. -/
def ReadyFromCertified (s s' : OnboardingStore) : Prop :=
  ∀ deviceId row', s'.table.row? deviceId = some row' → row'.status = .PRODUCTION_READY →
    ∃ row, s.table.row? deviceId = some row ∧
      (row.status = .CERTIFIED ∨ row.status = .PRODUCTION_READY)

/-- The condition on a statement: an update by `_advance_onboarding` does not
find a later status than the one that it writes. -/
def OnlyForward (c : OnboardingChoice) : OnboardingStmt → OnboardingStore → Prop
  | .update deviceId (.advance newStatus _ _), s =>
      c.fails = none → ∀ row ∈ s.table.row? deviceId, row.status.rank ≤ newStatus.rank
  | _, _ => True

instance (c : OnboardingChoice) (q : OnboardingStmt) (s : OnboardingStore) :
    Decidable (OnlyForward c q s) := by
  unfold OnlyForward
  split <;> infer_instance

/-- What an approval needs. -/
def FindsCertified (c : OnboardingChoice) : OnboardingStmt → OnboardingStore → Prop
  | .update deviceId u, s =>
      c.fails = none → ∀ row ∈ s.table.row? deviceId,
        (u.apply c.now row).status = .PRODUCTION_READY →
          row.status = .CERTIFIED ∨ row.status = .PRODUCTION_READY
  | _, _ => True

/-! ### One statement -/

theorem StatusGrows.refl (s : OnboardingStore) : StatusGrows s s :=
  fun _ row hrow => ⟨row, hrow, Nat.le_refl _⟩

theorem StatusGrows.trans {a b c : OnboardingStore} (hab : StatusGrows a b)
    (hbc : StatusGrows b c) : StatusGrows a c := by
  intro i row hrow
  obtain ⟨row', hrow', hle⟩ := hab i row hrow
  obtain ⟨row'', hrow'', hle'⟩ := hbc i row' hrow'
  exact ⟨row'', hrow'', hle.trans hle'⟩

theorem ReadyFromCertified.refl (s : OnboardingStore) : ReadyFromCertified s s :=
  fun _ row hrow hready => ⟨row, hrow, Or.inr hready⟩

@[simp] theorem OnboardingStatus.rank_le_ready (status : OnboardingStatus) :
    status.rank ≤ OnboardingStatus.PRODUCTION_READY.rank := by
  cases status <;> decide

/-- From CERTIFIED on there is only PRODUCTION_READY. -/
theorem OnboardingStatus.of_certified_le {status : OnboardingStatus}
    (h : OnboardingStatus.CERTIFIED.rank ≤ status.rank) :
    status = .CERTIFIED ∨ status = .PRODUCTION_READY := by
  cases status with
  | REGISTERED => exact absurd h (by decide)
  | VALIDATED => exact absurd h (by decide)
  | CERTIFIED => exact Or.inl rfl
  | PRODUCTION_READY => exact Or.inr rfl

section Step

variable {s s' : OnboardingStore}

/-- A new row is REGISTERED, and the others are what they were. -/
theorem statusGrows_insert {row : OnboardingRow} {table : OnboardingTable}
    (h : s.table.insert row = some table) (hs' : s'.table = table) : StatusGrows s s' := by
  intro i found hfound
  refine ⟨found, ?_, Nat.le_refl _⟩
  rw [hs']
  exact Table.row?_insert_of_some h hfound

theorem readyFromCertified_insert {row : OnboardingRow} {table : OnboardingTable}
    (h : s.table.insert row = some table) (hs' : s'.table = table)
    (hstatus : row.status ≠ .PRODUCTION_READY) : ReadyFromCertified s s' := by
  intro i found hfound hready
  rw [hs', Table.row?_insert h] at hfound
  cases hrow : s.table.row? i with
  | some old =>
      rw [hrow, Option.some_or] at hfound
      injection hfound with hfound
      exact ⟨old, rfl, Or.inr (hfound ▸ hready)⟩
  | none =>
      rw [hrow, Option.none_or] at hfound
      split at hfound
      · injection hfound with hfound
        exact absurd (hfound ▸ hready) hstatus
      · exact nomatch hfound

variable {u : OnboardingRow → OnboardingRow} (hu : ∀ row, (u row).deviceId = row.deviceId)
  {deviceId : String}

theorem statusGrows_update (hs' : s'.table = s.table.update deviceId u hu) :
    StatusGrows s s' ↔
      ∀ row ∈ s.table.row? deviceId, row.status.rank ≤ (u row).status.rank := by
  constructor
  · intro h row hrow
    obtain ⟨row', hrow', hle⟩ := h deviceId row hrow
    rw [hs', Table.row?_update, if_pos rfl, Option.mem_def.mp hrow] at hrow'
    injection hrow' with hrow'
    exact hrow' ▸ hle
  · intro h j row hrow
    rw [hs', Table.row?_update, hrow]
    by_cases hj : deviceId = j
    · subst hj
      exact ⟨u row, if_pos rfl, h row hrow⟩
    · exact ⟨row, if_neg hj, Nat.le_refl _⟩

theorem readyFromCertified_update (hs' : s'.table = s.table.update deviceId u hu) :
    ReadyFromCertified s s' ↔
      ∀ row ∈ s.table.row? deviceId, (u row).status = .PRODUCTION_READY →
        row.status = .CERTIFIED ∨ row.status = .PRODUCTION_READY := by
  constructor
  · intro h row hrow hready
    have hrow' : s'.table.row? deviceId = some (u row) := by
      rw [hs', Table.row?_update, if_pos rfl, Option.mem_def.mp hrow, Option.map_some]
    obtain ⟨found, hfound, hstatus⟩ := h deviceId (u row) hrow' hready
    rw [Option.mem_def.mp hrow] at hfound
    injection hfound with hfound
    exact hfound ▸ hstatus
  · intro h j row' hrow' hready
    rw [hs', Table.row?_update] at hrow'
    by_cases hj : deviceId = j
    · subst hj
      rw [if_pos rfl, Option.map_eq_some_iff] at hrow'
      obtain ⟨row, hrow, rfl⟩ := hrow'
      exact ⟨row, hrow, h row hrow hready⟩
    · rw [if_neg hj] at hrow'
      exact ⟨row', hrow', Or.inr hready⟩

end Step

/-- What a statement other than the insert and the update leaves of the table. -/
theorem onboardingSem_table (c : OnboardingChoice) {q : OnboardingStmt} (s : OnboardingStore)
    (hinsert : ∀ e, q ≠ .insertEnrollment e) (hupdate : ∀ d u, q ≠ .update d u) :
    (onboardingSem c q s).2.table = s.table := by
  unfold onboardingSem
  cases c.fails with
  | some m => rfl
  | none =>
      cases q with
      | insertEnrollment e => exact absurd rfl (hinsert e)
      | update d u => exact absurd rfl (hupdate d u)
      | _ => rfl

theorem statusGrows_of_table {s s' : OnboardingStore} (h : s'.table = s.table) :
    StatusGrows s s' :=
  fun _ row hrow => ⟨row, by rw [h, hrow], Nat.le_refl _⟩

theorem readyFromCertified_of_table {s s' : OnboardingStore} (h : s'.table = s.table) :
    ReadyFromCertified s s' :=
  fun _ row hrow hready => ⟨row, by rw [← h, hrow], Or.inr hready⟩

/-- A statement lets no device fall back exactly if it meets the condition. -/
theorem statusGrows_step (c : OnboardingChoice) (q : OnboardingStmt) (s : OnboardingStore) :
    StatusGrows s (onboardingSem c q s).2 ↔ OnlyForward c q s := by
  cases hfails : c.fails with
  | some m =>
      have hsame : (onboardingSem c q s).2 = s := by simp only [onboardingSem, hfails]
      rw [hsame]
      refine iff_of_true (.refl s) ?_
      unfold OnlyForward
      split <;> simp [hfails]
  | none =>
      cases q with
      | insertEnrollment e =>
          simp only [onboardingSem, hfails, onboardingExec]
          refine iff_of_true ?_ trivial
          split
          · exact statusGrows_of_table rfl
          · exact statusGrows_insert ‹_› rfl
      | update d u =>
          simp only [onboardingSem, hfails, onboardingExec]
          rw [statusGrows_update (u.apply_deviceId c.now) rfl]
          cases u with
          | advance newStatus col validation => simp [OnlyForward, hfails, OnboardingUpdate.apply]
          | recordValidation validation => simp [OnlyForward, OnboardingUpdate.apply]
          | approve notes => simp [OnlyForward, OnboardingUpdate.apply]
      | _ =>
          exact iff_of_true
            (statusGrows_of_table (onboardingSem_table c s (fun _ => nofun) fun _ _ => nofun))
            trivial

/-- A statement makes only CERTIFIED devices PRODUCTION_READY exactly if it
finds such a device. -/
theorem readyFromCertified_step (c : OnboardingChoice) (q : OnboardingStmt)
    (s : OnboardingStore) :
    ReadyFromCertified s (onboardingSem c q s).2 ↔ FindsCertified c q s := by
  cases hfails : c.fails with
  | some m =>
      have hsame : (onboardingSem c q s).2 = s := by simp only [onboardingSem, hfails]
      rw [hsame]
      refine iff_of_true (.refl s) ?_
      unfold FindsCertified
      split <;> simp [hfails]
  | none =>
      cases q with
      | insertEnrollment e =>
          simp only [onboardingSem, hfails, onboardingExec]
          refine iff_of_true ?_ trivial
          have hnew : OnboardingStatus.REGISTERED ≠ .PRODUCTION_READY := by decide
          split
          · exact readyFromCertified_of_table rfl
          · exact readyFromCertified_insert ‹_› rfl hnew
      | update d u =>
          simp only [onboardingSem, hfails, onboardingExec, FindsCertified, forall_const]
          exact readyFromCertified_update (u.apply_deviceId c.now) rfl
      | _ =>
          exact iff_of_true
            (readyFromCertified_of_table
              (onboardingSem_table c s (fun _ => nofun) fun _ _ => nofun))
            trivial

/-! ### Approvals -/

/-- Statements that make no device PRODUCTION_READY. -/
def NotApproving : OnboardingStmt → Prop
  | .update _ u => ∀ now row, (OnboardingUpdate.apply now row u).status = .PRODUCTION_READY →
      row.status = .PRODUCTION_READY
  | _ => True

/-- No status falls back, and an approval finds what it has read or better. -/
def approvalRules : Rules OnboardingStmt OnboardingChoice OnboardingStore where
  rely := StatusGrows
  admits := OnlyForward
  needs := FindsCertified

theorem findsCertified_of_notApproving {c : OnboardingChoice} {q : OnboardingStmt}
    {s : OnboardingStore} (h : NotApproving q) : FindsCertified c q s := by
  cases q with
  | update d u => exact fun _ row _ hready => Or.inr (h c.now row hready)
  | _ => trivial

theorem notApproving_audit (action resource : String) (detail : Dict (Option String))
    (site deviceId : Option String) :
    (audit action resource detail site deviceId).Issues NotApproving := by
  have hsite : (auditSite site deviceId).Issues NotApproving := by
    unfold auditSite
    split
    · refine Prog.Issues.bind ((Prog.issues_call _).mpr trivial) fun _ => ?_
      exact Prog.Issues.attempt ((Prog.issues_call _).mpr trivial) fun _ => trivial
    · trivial
  refine Prog.Issues.bind hsite fun site => ?_
  exact Prog.Issues.attempt ((Prog.issues_call _).mpr trivial) fun _ => trivial

theorem notApproving_answer (deviceId : String) :
    (answer deviceId).Issues NotApproving := by
  refine Prog.Issues.bind ((Prog.issues_call _).mpr trivial) fun row => ?_
  cases row with
  | none => trivial
  | some row => exact Prog.Issues.bind ((Prog.issues_call _).mpr trivial) fun _ => trivial

theorem notApproving_enroll (enrollment : OnboardingEnrollment) :
    (enrollDevice enrollment).Issues NotApproving := by
  unfold enrollDevice
  refine Prog.Issues.bind (notApproving_audit ..) fun _ => ?_
  refine Prog.Issues.bind ((Prog.issues_call _).mpr trivial) fun device => ?_
  refine Prog.Issues.bind (Prog.issues_raiseIf ..) fun _ => ?_
  refine Prog.Issues.bind ((Prog.issues_call _).mpr trivial) fun inserted => ?_
  exact Prog.Issues.bind (Prog.issues_raiseIf ..) fun _ => notApproving_answer _

theorem notApproving_advance (deviceId : String) {newStatus : OnboardingStatus}
    (h : newStatus ≠ .PRODUCTION_READY) (col : TimestampCol) (validation : Option Checks) :
    (advanceOnboarding deviceId newStatus col validation).Issues NotApproving := by
  refine (Prog.issues_call _).mpr fun now row hready => ?_
  exact absurd hready h

theorem notApproving_validate (deviceId : String) :
    (validateOnboarding deviceId).Issues NotApproving := by
  unfold validateOnboarding
  refine Prog.Issues.bind (notApproving_audit ..) fun _ => ?_
  refine Prog.Issues.bind ((Prog.issues_call _).mpr trivial) fun row => ?_
  cases row with
  | none => trivial
  | some row =>
      refine Prog.Issues.bind (Prog.issues_raiseIf ..) fun _ => ?_
      refine Prog.Issues.bind ((Prog.issues_call _).mpr trivial) fun device => ?_
      refine Prog.Issues.bind ((Prog.issues_call _).mpr trivial) fun telemetry => ?_
      have hanswer : (answer deviceId).Issues NotApproving := notApproving_answer deviceId
      dsimp only
      split
      · exact Prog.Issues.bind (notApproving_advance _ (by decide) _ _) fun _ => hanswer
      · exact Prog.Issues.bind ((Prog.issues_call _).mpr fun _ _ hready => hready)
          fun _ => hanswer

theorem notApproving_tests (authEnforced : Bool) (deviceId : String) :
    (runCertificationTests authEnforced deviceId).Issues NotApproving := by
  unfold runCertificationTests
  refine Prog.Issues.bind ((Prog.issues_call _).mpr trivial) fun now => ?_
  refine Prog.Issues.bind ((Prog.issues_call _).mpr trivial) fun device => ?_
  refine Prog.Issues.bind ((Prog.issues_call _).mpr trivial) fun latest => ?_
  refine Prog.Issues.bind ((Prog.issues_call _).mpr trivial) fun command => ?_
  refine Prog.Issues.bind ((Prog.issues_call _).mpr trivial) fun samples => ?_
  refine Prog.Issues.bind
    (Prog.Issues.attempt ((Prog.issues_call _).mpr trivial) fun _ => trivial) fun replicas => ?_
  refine Prog.Issues.bind ((Prog.issues_call _).mpr trivial) fun plaintextOpen => ?_
  exact Prog.Issues.bind ((Prog.issues_call _).mpr trivial) fun _ => trivial

theorem notApproving_certify (authEnforced : Bool) (deviceId : String) :
    (certifyOnboarding authEnforced deviceId).Issues NotApproving := by
  unfold certifyOnboarding
  refine Prog.Issues.bind (notApproving_audit ..) fun _ => ?_
  refine Prog.Issues.bind ((Prog.issues_call _).mpr trivial) fun row => ?_
  cases row with
  | none => trivial
  | some row =>
      refine Prog.Issues.bind (Prog.issues_raiseIf ..) fun _ => ?_
      refine Prog.Issues.bind (notApproving_tests ..) fun results => ?_
      have hanswer : (answer deviceId).Issues NotApproving := notApproving_answer deviceId
      dsimp only
      split
      · exact Prog.Issues.bind (notApproving_advance _ (by decide) _ _) fun _ =>
          Prog.Issues.bind hanswer fun _ => trivial
      · exact Prog.Issues.bind hanswer fun _ => trivial

/-- An approval updates a row that it has found CERTIFIED. -/
theorem approveOnboarding_proved (deviceId : String) (approval : ApprovalRequest)
    (s : OnboardingStore) :
    wp onboardingSem approvalRules (approveOnboarding deviceId approval) (fun _ _ => True) s := by
  have hneeds {α : Type} {p : OnboardingProg α} (hp : p.Issues NotApproving)
      (s : OnboardingStore) : wp onboardingSem approvalRules p (fun _ _ => True) s :=
    wp.of_issues_needs (fun _ _ _ h => findsCertified_of_notApproving h) hp s
  unfold approveOnboarding
  refine (hneeds (notApproving_audit ..) s).bind (fun _ s _ => ?_) fun _ _ _ => trivial
  rw [wp_bind, wp_call]
  intro s₁ _ c _
  refine ⟨trivial, ?_⟩
  cases hfails : c.fails with
  | some m =>
      simp only [onboardingSem, hfails]
  | none =>
      simp only [onboardingSem, hfails, onboardingExec]
      cases hrow : s₁.table.row? deviceId with
      | none => trivial
      | some row =>
          dsimp only
          rw [wp_bind, wp_raiseIf]
          refine ⟨fun _ => trivial, fun hstatus => ?_⟩
          rw [not_not] at hstatus
          dsimp only
          rw [wp_bind, wp_call]
          intro s₂ hgrows c₂ _
          refine ⟨fun _ row₂ hrow₂ _ => ?_, ?_⟩
          · obtain ⟨found, hfound, hle⟩ := hgrows deviceId row hrow
            rw [Option.mem_def.mp hrow₂] at hfound
            injection hfound with hfound
            subst hfound
            exact OnboardingStatus.of_certified_le (hstatus ▸ hle)
          · cases (onboardingSem c₂ (.update deviceId (.approve approval.note)) s₂).1 with
            | error e => trivial
            | ok _ => exact hneeds (notApproving_answer deviceId) _

theorem onboarding_cooperative (authEnforced : Bool) :
    Cooperative onboardingSem (OnboardingCall.serve authEnforced) noEnv approvalRules where
  trans _ _ _ := StatusGrows.trans
  self _ b _ := .refl b
  stmt c q s _ hadm _ := (statusGrows_step c q s).mpr hadm
  env := nofun
  serve r s _ := by
    have hneeds {p : OnboardingProg Unit} (hp : p.Issues NotApproving) :
        wp onboardingSem approvalRules p (fun _ _ => True) s :=
      wp.of_issues_needs (fun _ _ _ h => findsCertified_of_notApproving h) hp s
    cases r with
    | enroll enrollment => exact hneeds ((notApproving_enroll _).bind fun _ => trivial)
    | validate deviceId => exact hneeds ((notApproving_validate _).bind fun _ => trivial)
    | certify deviceId => exact hneeds ((notApproving_certify _ _).bind fun _ => trivial)
    | approve deviceId approval =>
        exact (approveOnboarding_proved deviceId approval s).bind (fun _ _ _ => trivial)
          fun _ _ _ => trivial

/-! ### Every schedule -/

/-- A schedule of requests that have yet to arrive. -/
abbrev onboardingRun (authEnforced : Bool) (s : OnboardingStore) (schedule : Schedule) :
    Config OnboardingResp Exc Unit OnboardingStore :=
  Config.run onboardingSem (OnboardingCall.serve authEnforced) noEnv ⟨s, []⟩ schedule

/-- Every statement of the schedule meets the condition. -/
abbrev AllStatements (P : OnboardingChoice → OnboardingStmt → OnboardingStore → Prop)
    (authEnforced : Bool) (s : OnboardingStore) (schedule : Schedule) : Prop :=
  (⟨s, []⟩ : Config OnboardingResp Exc Unit OnboardingStore).AllSteps onboardingSem
    (OnboardingCall.serve authEnforced) noEnv P schedule

/-- **The onboarding order.** However the statements of enrollments, validations,
certifications and approvals interleave, and whatever fails, no device ever falls
back and only CERTIFIED devices become PRODUCTION_READY, exactly if no update by
`_advance_onboarding` finds a later status than the one that it writes. -/
theorem onboarding_order_iff (authEnforced : Bool) (s : OnboardingStore) (schedule : Schedule) :
    ((∀ n m, n ≤ m →
        StatusGrows (onboardingRun authEnforced s (schedule.take n)).state
          (onboardingRun authEnforced s (schedule.take m)).state) ∧
      ∀ n, ReadyFromCertified (onboardingRun authEnforced s (schedule.take n)).state
        (onboardingRun authEnforced s (schedule.take (n + 1))).state) ↔
      AllStatements OnlyForward authEnforced s schedule := by
  have hgrows := Config.along_iff_allSteps onboardingSem (OnboardingCall.serve authEnforced) noEnv
    StatusGrows.refl (fun _ _ _ => StatusGrows.trans) statusGrows_step nofun ⟨s, []⟩ schedule
  have hready := Config.each_iff_allSteps onboardingSem (OnboardingCall.serve authEnforced) noEnv
    ReadyFromCertified.refl readyFromCertified_step nofun ⟨s, []⟩ schedule
  refine ⟨fun h => hgrows.mp h.1, fun h => ⟨hgrows.mpr h, hready.mpr ?_⟩⟩
  have hproved : (⟨s, []⟩ : Config OnboardingResp Exc Unit OnboardingStore).Proved onboardingSem
      approvalRules := ⟨.refl s, nofun⟩
  exact ((onboarding_cooperative authEnforced).run schedule hproved h).2

/-! ### Slow checks -/

/-- A battery that has been validated. -/
def oneValidated : OnboardingStore where
  table := {
    rows := [{ id := 1, deviceId := "BAT002", protocol := "modbus", status := .VALIDATED }] }
  nextId := 2

/-- A device that passes every check and every test. -/
def passing : OnboardingChoice where
  now := ⟨43200, "12:00"⟩
  device := some { deviceId := "BAT002", deviceType := "battery", status := "ONLINE" }
  telemetry := some ⟨43199, "11:59:59"⟩
  command := some {
    commandId := "c1", deviceId := "BAT002", deviceType := "battery", commandType := "charge"
    issuedBy := "api", status := .ACKED, dispatchedAt := "11:58" }
  samples := 36
  replicas := 1

/-- The next `n` statements of the `i`-th request. -/
def statements (i n : ℕ) : Schedule := List.replicate n (.act i passing)

/-- A validation has found VALIDATED and makes its checks, while the device is
certified. The approval has found CERTIFIED when the validation updates the row. -/
def slowValidation : Schedule :=
  .spawn (.validate "BAT002") :: statements 0 6 ++
    .spawn (.certify "BAT002") :: statements 1 13 ++
      .spawn (.approve "BAT002" {}) :: statements 2 4 ++ statements 0 1 ++ statements 2 1

/-- A certification has found VALIDATED and runs its tests, while another one
ends and the device is approved. -/
def slowCertification : Schedule :=
  .spawn (.certify "BAT002") :: statements 0 12 ++
    .spawn (.certify "BAT002") :: statements 1 13 ++
      .spawn (.approve "BAT002" {}) :: statements 2 5 ++ statements 0 1

/-- The status of the battery after the first `n` events. -/
def statusAfter (schedule : Schedule) (n : ℕ) : Option OnboardingStatus :=
  ((onboardingRun true oneValidated (schedule.take n)).state.table.row? "BAT002").map
    fun row => row.status

/-- What the statuses before and after say about a step. -/
theorem not_statusGrows {s s' : OnboardingStore} {i : String} {a b : OnboardingStatus}
    (ha : (s.table.row? i).map (fun row => row.status) = some a)
    (hb : (s'.table.row? i).map (fun row => row.status) = some b) (hlt : b.rank < a.rank) :
    ¬ StatusGrows s s' := by
  intro h
  obtain ⟨row, hrow, rfl⟩ := Option.map_eq_some_iff.mp ha
  obtain ⟨row', hrow', hle⟩ := h i row hrow
  rw [hrow', Option.map_some] at hb
  injection hb with hb
  rw [hb] at hle
  exact absurd hle (Nat.not_le.mpr hlt)

theorem not_readyFromCertified {s s' : OnboardingStore} {i : String} {a : OnboardingStatus}
    (ha : (s.table.row? i).map (fun row => row.status) = some a)
    (hb : (s'.table.row? i).map (fun row => row.status) = some .PRODUCTION_READY)
    (hlt : a.rank < OnboardingStatus.CERTIFIED.rank) : ¬ ReadyFromCertified s s' := by
  intro h
  obtain ⟨row', hrow', hready⟩ := Option.map_eq_some_iff.mp hb
  obtain ⟨row, hrow, hstatus⟩ := h i row' hrow' hready
  rw [hrow, Option.map_some] at ha
  injection ha with ha
  rw [← ha] at hlt
  rcases hstatus with hstatus | hstatus <;> rw [hstatus] at hlt <;> exact absurd hlt (by decide)

/-- The slow validation takes the certification back, and the approval then makes
a VALIDATED device PRODUCTION_READY; the slow certification takes an approval
back. -/
theorem onboarding_falls_back :
    (¬ ((∀ n m, n ≤ m →
        StatusGrows (onboardingRun true oneValidated (slowValidation.take n)).state
          (onboardingRun true oneValidated (slowValidation.take m)).state) ∨
      ∀ n, ReadyFromCertified (onboardingRun true oneValidated (slowValidation.take n)).state
        (onboardingRun true oneValidated (slowValidation.take (n + 1))).state)) ∧
      ¬ ∀ n m, n ≤ m →
        StatusGrows (onboardingRun true oneValidated (slowCertification.take n)).state
          (onboardingRun true oneValidated (slowCertification.take m)).state := by
  have hcertified : statusAfter slowValidation 26 = some .CERTIFIED := by decide +kernel
  have hback : statusAfter slowValidation 27 = some .VALIDATED := by decide +kernel
  have hready : statusAfter slowValidation 28 = some .PRODUCTION_READY := by decide +kernel
  have happroved : statusAfter slowCertification 33 = some .PRODUCTION_READY := by decide +kernel
  have hdowngraded : statusAfter slowCertification 34 = some .CERTIFIED := by decide +kernel
  refine ⟨not_or.mpr ⟨fun h => ?_, fun h => ?_⟩, fun h => ?_⟩
  · exact not_statusGrows hcertified hback (by decide) (h 26 27 (by decide))
  · exact not_readyFromCertified hback hready (by decide) (h 27)
  · exact not_statusGrows happroved hdowngraded (by decide) (h 33 34 (by decide))

end DiepLab.Onboarding
