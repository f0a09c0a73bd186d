import DiepLab.Commands.Statements

/-!
What a device has reported.

`ack_command` is the only function that stamps `acked_at`, so a command that
carries the stamp and stands at ACKED or FAILED has been reported by its device.
The update that marks a command as sent respects such a status. The other two do
not: an acknowledgement overwrites an earlier one, and the update after a failed
publish overwrites the report of a device that the message has reached all the
same. `KeepsReport` is what these two statements would have to check.
-/

namespace DiepLab.Commands

open StatementProgram

/-! ### The table -/

namespace CommandTable

variable {table table' : CommandTable} {row : CommandRow}

theorem row?_update (table : CommandTable) (i j : String) (u : CommandUpdate) :
    (table.update i u).row? j =
      if i = j then (table.row? j).map u.apply else table.row? j := by
  obtain ⟨rows, _⟩ := table
  simp only [row?, update]
  induction rows with
  | nil => simp
  | cons row rows ih =>
      rename_i hkey
      have hrest := ih (List.nodup_cons.mp hkey).2
      rw [List.map_cons, List.find?_cons, List.find?_cons, hrest]
      by_cases hrow : row.commandId = i
      · by_cases hij : i = j <;> simp [hrow, hij]
      · by_cases hij : i = j
        · subst hij
          simp [hrow]
        · rw [if_neg hrow, if_neg hij, if_neg hij]

theorem insert_eq_some (h : table.insert row = some table') :
    row.commandId ∉ table.rows.map (fun row => row.commandId) ∧
      table'.rows = table.rows ++ [row] := by
  unfold insert at h
  split at h
  · exact nomatch h
  · injection h with h
    exact ⟨‹_›, h ▸ rfl⟩

/-- A row that is there is found as before. -/
theorem row?_insert (h : table.insert row = some table') {i : String} {found : CommandRow}
    (hfound : table.row? i = some found) : table'.row? i = some found := by
  rw [row?, (insert_eq_some h).2, List.find?_append, show table.rows.find? _ = _ from hfound,
    Option.some_or]

end CommandTable

/-! ### Reports -/

/-- The status is what the device has reported. -/
def CommandRow.Reported (row : CommandRow) : Prop :=
  row.ackedAt.isSome = true ∧ (row.status = .ACKED ∨ row.status = .FAILED)

instance (row : CommandRow) : Decidable row.Reported := inferInstanceAs (Decidable (_ ∧ _))

/-- What is reported in the one state is reported in the other. -/
def ReportsStay (s s' : CommandStore) : Prop :=
  ∀ commandId row, s.table.row? commandId = some row → row.Reported →
    ∃ row', s'.table.row? commandId = some row' ∧ row'.Reported ∧ row'.status = row.status

/-- The condition on a statement: a command that is already reported is given
the status that it has. -/
def KeepsReport (c : CommandChoice) : CommandStmt → CommandStore → Prop
  | .failCommand commandId _, s =>
      c.fails = none → ∀ row ∈ s.table.row? commandId, row.Reported → row.status = .FAILED
  | .ackUpdate commandId status _, s =>
      c.fails = none → ∀ row ∈ s.table.row? commandId, row.Reported → row.status = status.status
  | _, _ => True

instance (c : CommandChoice) (q : CommandStmt) (s : CommandStore) :
    Decidable (KeepsReport c q s) :=
  match q with
  | .failCommand .. | .ackUpdate .. => inferInstanceAs (Decidable (c.fails = none → _))
  | .now | .uuid4 | .selectDevice _ | .insertTelemetry _ | .insertCommand _ | .publish _
  | .markSent _ | .selectCommand _ | .hsetStatus .. | .hsetState .. | .expire | .hgetall _ =>
      inferInstanceAs (Decidable True)

theorem ReportsStay.refl (s : CommandStore) : ReportsStay s s :=
  fun _ row hrow hreported => ⟨row, hrow, hreported, rfl⟩

theorem ReportsStay.trans {a b c : CommandStore} (hab : ReportsStay a b) (hbc : ReportsStay b c) :
    ReportsStay a c := by
  intro i row hrow hreported
  obtain ⟨row', hrow', hreported', hstatus'⟩ := hab i row hrow hreported
  obtain ⟨row'', hrow'', hreported'', hstatus''⟩ := hbc i row' hrow' hreported'
  exact ⟨row'', hrow'', hreported'', hstatus''.trans hstatus'⟩

theorem reportsStay_of_table {s s' : CommandStore} (h : s'.table = s.table) : ReportsStay s s' :=
  fun _ row hrow hreported => ⟨row, by rw [h, hrow], hreported, rfl⟩

/-- An update keeps the reports exactly if it leaves the row that it meets with
its status, when that is reported. -/
theorem reportsStay_update {s s' : CommandStore} {i : String} {u : CommandUpdate}
    (hs' : s'.table = s.table.update i u)
    (hacked : ∀ row : CommandRow, row.ackedAt.isSome = true →
      (u.apply row).ackedAt.isSome = true) :
    ReportsStay s s' ↔
      ∀ row ∈ s.table.row? i, row.Reported → row.status = (u.apply row).status := by
  constructor
  · intro h row hrow hreported
    obtain ⟨row', hrow', -, hstatus⟩ := h i row hrow hreported
    rw [hs', CommandTable.row?_update, if_pos rfl, Option.mem_def.mp hrow] at hrow'
    injection hrow' with hrow'
    exact (hrow' ▸ hstatus).symm
  · intro h j row hrow hreported
    rw [hs', CommandTable.row?_update, hrow]
    by_cases hij : i = j
    · subst hij
      have hstatus := h row hrow hreported
      refine ⟨u.apply row, if_pos rfl, ⟨hacked row hreported.1, ?_⟩, hstatus.symm⟩
      rw [← hstatus]
      exact hreported.2
    · exact ⟨row, if_neg hij, hreported, rfl⟩

/-- A statement keeps the reports exactly if it meets the condition. -/
theorem reportsStay_step (c : CommandChoice) (q : CommandStmt) (s : CommandStore) :
    ReportsStay s (commandSem c q s).2 ↔ KeepsReport c q s := by
  cases hfails : c.fails with
  | some m =>
      refine iff_of_true (reportsStay_of_table (commandSem_failed hfails q s).1) ?_
      cases q <;> simp [KeepsReport, hfails]
  | none =>
      cases q with
      | insertCommand row =>
          simp only [commandSem, hfails, commandExec]
          refine iff_of_true ?_ trivial
          cases hinsert : s.table.insert row with
          | none => exact .refl s
          | some table =>
              intro i found hfound hreported
              exact ⟨found, CommandTable.row?_insert hinsert hfound, hreported, rfl⟩
      | failCommand i message =>
          simp only [commandSem, hfails, commandExec, KeepsReport, forall_const]
          exact reportsStay_update (s := s) (i := i) (u := .failed message) rfl fun _ h => h
      | markSent i =>
          simp only [commandSem, hfails, commandExec]
          refine iff_of_true ?_ trivial
          cases hrow : s.table.row? i with
          | none => exact .refl s
          | some row =>
              refine (reportsStay_update (s := s) (i := i) (u := .sent c.now.iso) rfl
                fun _ h => h).mpr ?_
              rintro row' - ⟨-, hstatus⟩
              rcases hstatus with hstatus | hstatus <;>
                simp [CommandUpdate.apply, hstatus, CommandStatus.sent]
      | ackUpdate i status error =>
          simp only [commandSem, hfails, commandExec, KeepsReport, forall_const]
          cases hrow : s.table.row? i with
          | none => exact iff_of_true (.refl s) fun _ hrow => by cases hrow
          | some row =>
              rw [reportsStay_update (i := i) (u := .acked status error c.now.iso) rfl
                fun _ _ => rfl, hrow]
              rfl
      | _ =>
          simp only [commandSem, hfails]
          exact iff_of_true (reportsStay_of_table rfl) trivial

def oneCharger : CommandStore where
  devices := [{ deviceId := "EV001", deviceType := "ev_charger" }]

def commandChoice : CommandChoice := { uuid := "c1", now := ⟨43200, "12:00"⟩ }

/-- The next statements of some calls. -/
def commandActs (calls : List ℕ) : Schedule := calls.map fun i => .act i commandChoice

/-- A dispatch, up to its publish. -/
def dispatchStarted : Schedule :=
  .spawn (.dispatch "EV001" "start_charging" "api") :: commandActs [0, 0, 0, 0, 0, 0, 0]

/-- The publish is delivered and not acknowledged in time. The device reports
that it has executed the command before the dispatch goes on. -/
def publishTimedOut : Schedule :=
  dispatchStarted ++
    [.act 0 { commandChoice with fails := some "KafkaTimeoutError", delivered := true },
      .spawn (.ack "c1" "ACKED" none)] ++ commandActs [1, 0]

/-- Two reports that contradict each other. -/
def twoReports : Schedule :=
  dispatchStarted ++ commandActs [0] ++
    [.spawn (.ack "c1" "ACKED" none), .spawn (.ack "c1" "FAILED" none)] ++ commandActs [1, 2]

/-- An update that overwrites a report. -/
theorem not_reportsStay {s s' : CommandStore} {i : String} {row : CommandRow}
    (hrow : s.table.row? i = some row) (hreported : row.Reported)
    (hstatus : (s'.table.row? i).map (fun row => row.status) ≠ some row.status) :
    ¬ ReportsStay s s' := by
  intro h
  obtain ⟨row', hrow', -, hstatus'⟩ := h i row hrow hreported
  rw [hrow'] at hstatus
  exact hstatus (congrArg some hstatus')

end DiepLab.Commands
