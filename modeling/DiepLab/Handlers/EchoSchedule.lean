import DiepLab.Handlers.Field
import Mathlib.Data.List.ReduceOption

/-!
Echo verification against a schedule of telemetry.

A row has the time at which it was captured and the time at which it arrived in the table.
`verify_echo` knows the second only: a poll finds the row that was captured last among those
that have arrived, and takes it for a reading of its own time if it was captured after the
row that was the newest when it began, its baseline.

`verifyEcho_right_iff` says on which schedules the answer is right; what can go wrong is
`Misread`.
-/

namespace DiepLab.EchoSchedule

open StatementProgram

/-! ### Schedules -/

/-- A telemetry row of the device, captured at `state.ts`. -/
structure ScheduledRow where
  state : DeviceState
  arrival : ℚ
  deriving DecidableEq, Repr

/-- `read_device_state` at a moment: one of the rows captured last among those that have
arrived. -/
def Newest (rows : List ScheduledRow) (now : ℚ) : Option DeviceState → Prop
  | none => ∀ row ∈ rows, ¬row.arrival ≤ now
  | some state =>
      (∃ row ∈ rows, row.arrival ≤ now ∧ row.state = state) ∧
        ∀ row ∈ rows, row.arrival ≤ now → row.state.ts ≤ state.ts

instance (rows : List ScheduledRow) (now : ℚ) :
    (answer : Option DeviceState) → Decidable (Newest rows now answer)
  | none => inferInstanceAs (Decidable (∀ row ∈ rows, ¬row.arrival ≤ now))
  | some state =>
      inferInstanceAs (Decidable ((∃ row ∈ rows, row.arrival ≤ now ∧ row.state = state) ∧
        ∀ row ∈ rows, row.arrival ≤ now → row.state.ts ≤ state.ts))

/-- `baseline_ts`. -/
def baselineTs (start : Option DeviceState) : ℚ := (start.map DeviceState.ts).getD 0

/-- The rows that the polls have found newer than the baseline. -/
def freshReads (baseline : ℚ) (answers : List (Option DeviceState)) : List DeviceState :=
  answers.reduceOption.filter fun state => baseline < state.ts

theorem freshReads_cons_some {baseline : ℚ} (state : DeviceState)
    (answers : List (Option DeviceState)) :
    freshReads baseline (some state :: answers) =
      if baseline < state.ts then state :: freshReads baseline answers
      else freshReads baseline answers := by
  rw [freshReads, List.reduceOption_cons_of_some, List.filter_cons]
  simp only [decide_eq_true_eq, freshReads]

/-- The row matches every field of `expect`. -/
def Matched (expect : List Expectation) (state : DeviceState) : Prop :=
  ∀ e ∈ expect, fieldMatch state e = some true

instance (expect : List Expectation) (state : DeviceState) : Decidable (Matched expect state) :=
  inferInstanceAs (Decidable (∀ e ∈ expect, fieldMatch state e = some true))

/-- The row reports a field of `expect`. -/
def Reports (expect : List Expectation) (state : DeviceState) : Prop :=
  ∃ e ∈ expect, (fieldMatch state e).isSome = true

instance (expect : List Expectation) (state : DeviceState) : Decidable (Reports expect state) :=
  inferInstanceAs (Decidable (∃ e ∈ expect, (fieldMatch state e).isSome = true))

/-- A verification on a schedule: when it began and what it found then, and the moment and
the answer of each poll. -/
structure Verification (rows : List ScheduledRow) where
  began : ℚ
  start : Option DeviceState
  polls : List (ℚ × Option DeviceState)
  start_newest : Newest rows began start
  polls_newest : ∀ poll ∈ polls, Newest rows poll.1 poll.2

namespace Verification

variable {rows : List ScheduledRow} (v : Verification rows)

def answers : List (Option DeviceState) := v.polls.map Prod.snd

/-- The rows that it takes for readings of its own time. -/
def reads : List DeviceState := freshReads (baselineTs v.start) v.answers

variable {v}

theorem mem_reads {state : DeviceState} (h : state ∈ v.reads) :
    (∃ row ∈ rows, row.state = state) ∧ baselineTs v.start < state.ts := by
  rw [reads, freshReads, List.mem_filter, List.reduceOption_mem_iff] at h
  obtain ⟨⟨now, answer⟩, hpoll, rfl⟩ := List.mem_map.mp h.1
  obtain ⟨row, hrow, -, hstate⟩ := (v.polls_newest _ hpoll).1
  exact ⟨⟨row, hrow, hstate⟩, of_decide_eq_true h.2⟩

/-- A row that was captured before verification began and is taken for fresh has arrived
since. -/
theorem late_arrives {row : ScheduledRow} (hrow : row ∈ rows) (hread : row.state ∈ v.reads) :
    v.began < row.arrival := by
  have hstart := v.start_newest
  have hfresh := (mem_reads hread).2
  by_contra harrived
  cases hcase : v.start with
  | none =>
      rw [hcase] at hstart
      exact hstart row hrow (not_lt.mp harrived)
  | some first =>
      rw [hcase] at hstart hfresh
      exact absurd hfresh (hstart.2 row hrow (not_lt.mp harrived)).not_gt

/-- A poll misses a row that has not arrived, and one that is hidden by another captured no
earlier. -/
theorem missed {row : ScheduledRow} (hrow : row ∈ rows) {poll : ℚ × Option DeviceState}
    (hpoll : poll ∈ v.polls) (hmissed : poll.2 ≠ some row.state) :
    poll.1 < row.arrival ∨
      ∃ newer ∈ rows, newer.arrival ≤ poll.1 ∧ row.state.ts ≤ newer.state.ts ∧
        newer.state ≠ row.state := by
  have hnewest := v.polls_newest poll hpoll
  obtain ⟨now, answer⟩ := poll
  by_cases harrived : row.arrival ≤ now
  · cases answer with
    | none => exact absurd harrived (hnewest row hrow)
    | some state =>
        obtain ⟨⟨newer, hnewer, hvisible, rfl⟩, hmax⟩ := hnewest
        exact Or.inr ⟨newer, hnewer, hvisible, hmax row hrow harrived, fun h => hmissed (by rw [h])⟩
  · exact Or.inl (not_le.mp harrived)

end Verification

/-! ### The answer -/

section Answer

variable (deviceId : String) (expect : List Expectation)

/-- What is answered to the statements of the loop: one row a poll. -/
def polling (answers : List (Option DeviceState)) : ℕ → GridChoice := fun i =>
  { reported := (answers[i]?).join }

/-- The same for the whole verification: the number of polls and the first row come before. -/
def verifying (start : Option DeviceState) (answers : List (Option DeviceState)) : ℕ → GridChoice
  | 0 => { polls := answers.length }
  | 1 => { reported := start }
  | i + 2 => polling answers i

/-- `confirmed`, from the rows that are newer than the baseline. -/
def verdict (reads : List DeviceState) (anyReported : Bool) : Option Bool :=
  if ∃ state ∈ reads, Matched expect state then some true
  else if anyReported = true ∨ ∃ state ∈ reads, Reports expect state then some false
  else none

variable {deviceId expect} {db : GridDb} {baseline : ℚ}

theorem matched_iff (state : DeviceState) :
    (∀ r ∈ expect.map (fieldMatch state), r = some true) ↔ Matched expect state :=
  List.forall_mem_map

theorem reports_iff (state : DeviceState) :
    (expect.map (fieldMatch state)).any Option.isSome = true ↔ Reports expect state := by
  simp only [List.any_map, List.any_eq_true, Function.comp_apply, Reports]

/-- The loop answers by the fresh rows alone. -/
theorem pollEcho_run (answers : List (Option DeviceState)) (anyReported : Bool)
    (last : Option DeviceState) :
    ∃ echo s, (pollEcho deviceId expect baseline answers.length anyReported last).run
        (withChoices gridSem) (db, polling answers) = (.ok echo, s) ∧
      echo.confirmed = verdict expect (freshReads baseline answers) anyReported := by
  induction answers generalizing anyReported last with
  | nil =>
      refine ⟨_, _, rfl, ?_⟩
      simp [verdict, freshReads, List.reduceOption_nil]
  | cons answer answers ih =>
      have hread : (Sql.telemetry deviceId).run (withChoices gridSem)
          (db, polling (answer :: answers)) = (.ok answer, (db, polling answers)) := rfl
      rw [List.length_cons, pollEcho, Prog.run_bind, hread]
      cases answer with
      | none => exact ih anyReported last
      | some state =>
          rw [freshReads_cons_some]
          by_cases hfresh : baseline < state.ts
          · simp only [hfresh, if_true, matched_iff]
            by_cases hmatch : Matched expect state
            · rw [if_pos hmatch]
              refine ⟨_, _, rfl, ?_⟩
              rw [verdict, if_pos ⟨state, List.mem_cons_self, hmatch⟩]
            · rw [if_neg hmatch]
              obtain ⟨echo, s, hrun, hconfirmed⟩ := ih
                (anyReported || (expect.map (fieldMatch state)).any Option.isSome) (some state)
              refine ⟨echo, s, hrun, ?_⟩
              simp only [hconfirmed, verdict, Bool.or_eq_true, reports_iff, List.mem_cons,
                exists_eq_or_imp, hmatch, false_or, or_assoc]
          · simp only [hfresh, if_false]
            exact ih anyReported last

theorem verifyEcho_run (start : Option DeviceState) (answers : List (Option DeviceState)) :
    ∃ echo, ((verifyEcho deviceId expect).run (withChoices gridSem)
        (db, verifying start answers)).1 = .ok echo ∧
      echo.confirmed = verdict expect (freshReads (baselineTs start) answers) false := by
  have hdeadline : Sql.deadline.run (withChoices gridSem) (db, verifying start answers) =
      (.ok answers.length, (db, fun i => verifying start answers (i + 1))) := rfl
  have hstart : (Sql.telemetry deviceId).run (withChoices gridSem)
      (db, fun i => verifying start answers (i + 1)) = (.ok start, (db, polling answers)) := rfl
  obtain ⟨echo, s, hrun, hconfirmed⟩ :
      ∃ echo s, (pollEcho deviceId expect (baselineTs start) answers.length false start).run
        (withChoices gridSem) (db, polling answers) = (.ok echo, s) ∧ _ :=
    pollEcho_run answers false start
  refine ⟨echo, ?_, hconfirmed⟩
  rw [verifyEcho, Prog.run_bind, hdeadline]
  dsimp only
  rw [Prog.run_bind, hstart]
  exact congrArg Prod.fst hrun

end Answer

/-! ### Right answers -/

/-- A yes needs a row that was captured after verification began and matches; a no needs
that a row was captured then, and that none matches. -/
structure Right (rows : List ScheduledRow) (began : ℚ) (expect : List Expectation)
    (confirmed : Option Bool) : Prop where
  yes : confirmed = some true → ∃ row ∈ rows, began < row.state.ts ∧ Matched expect row.state
  no : confirmed = some false → (∃ row ∈ rows, began < row.state.ts) ∧
    ∀ row ∈ rows, began < row.state.ts → ¬Matched expect row.state

/-- What can go wrong with the rows that are taken for fresh. -/
inductive Misread (rows : List ScheduledRow) (began : ℚ) (expect : List Expectation)
    (reads : List DeviceState) : Prop
  /-- A row that was captured before matches, and none that was captured after. -/
  | lateMatch (state : DeviceState) (read : state ∈ reads) (late : state.ts ≤ began)
      (matched : Matched expect state)
      (alone : ∀ row ∈ rows, began < row.state.ts → ¬Matched expect row.state)
  /-- A row that was captured before reports a field, none matches, and no row was captured
  after. -/
  | lateReport (state : DeviceState) (read : state ∈ reads) (late : state.ts ≤ began)
      (reported : Reports expect state) (unmatched : ∀ state ∈ reads, ¬Matched expect state)
      (alone : ∀ row ∈ rows, row.state.ts ≤ began)
  /-- A row that was captured after matches and is not read, nor is another that matches,
  while one is read that reports a field. -/
  | unread (row : ScheduledRow) (mem : row ∈ rows) (after : began < row.state.ts)
      (matched : Matched expect row.state) (unmatched : ∀ state ∈ reads, ¬Matched expect state)
      (reported : ∃ state ∈ reads, Reports expect state)

section Verdicts

variable {rows : List ScheduledRow} {began : ℚ} {expect : List Expectation}
  {reads : List DeviceState}

theorem verdict_eq_true_iff :
    verdict expect reads false = some true ↔ ∃ state ∈ reads, Matched expect state := by
  rw [verdict]
  split
  · exact iff_of_true rfl ‹_›
  · rename_i hnone
    refine iff_of_false (fun h => ?_) hnone
    split at h <;> simp at h

theorem verdict_eq_false_iff :
    verdict expect reads false = some false ↔
      (∀ state ∈ reads, ¬Matched expect state) ∧ ∃ state ∈ reads, Reports expect state := by
  rw [verdict]
  split
  · rename_i hsome
    refine iff_of_false (fun h => nomatch h) fun h => ?_
    obtain ⟨state, hstate, hmatched⟩ := hsome
    exact h.1 state hstate hmatched
  · rename_i hnone
    have hall : ∀ state ∈ reads, ¬Matched expect state := fun state hstate hmatched =>
      hnone ⟨state, hstate, hmatched⟩
    simp only [Bool.false_eq_true, false_or]
    split
    · exact iff_of_true rfl ⟨hall, ‹_›⟩
    · rename_i hsilent
      exact iff_of_false (fun h => nomatch h) fun h => hsilent h.2

/-- Rows that have been read are rows of the schedule. -/
theorem right_verdict_iff (hreads : ∀ state ∈ reads, ∃ row ∈ rows, row.state = state) :
    Right rows began expect (verdict expect reads false) ↔ ¬Misread rows began expect reads := by
  constructor
  · rintro ⟨hyes, hno⟩ (⟨state, hread, -, hmatched, halone⟩ |
      ⟨state, hread, -, hreported, hunmatched, halone⟩ |
      ⟨row, hmem, hafter, hmatched, hunmatched, hreported⟩)
    · obtain ⟨row, hrow, hafter, hrowMatched⟩ := hyes
        (verdict_eq_true_iff.mpr ⟨state, hread, hmatched⟩)
      exact halone row hrow hafter hrowMatched
    · obtain ⟨⟨row, hrow, hafter⟩, -⟩ := hno
        (verdict_eq_false_iff.mpr ⟨hunmatched, state, hread, hreported⟩)
      exact absurd hafter (halone row hrow).not_gt
    · exact (hno (verdict_eq_false_iff.mpr ⟨hunmatched, hreported⟩)).2 row hmem hafter hmatched
  · intro hmisread
    refine ⟨fun hyes => ?_, fun hno => ?_⟩
    · obtain ⟨state, hread, hmatched⟩ := verdict_eq_true_iff.mp hyes
      by_contra hnone
      push Not at hnone
      obtain ⟨row, hrow, rfl⟩ := hreads state hread
      refine hmisread (.lateMatch row.state hread ?_ hmatched hnone)
      exact not_lt.mp fun hafter => hnone row hrow hafter hmatched
    · obtain ⟨hunmatched, hreported⟩ := verdict_eq_false_iff.mp hno
      refine ⟨?_, fun row hrow hafter hmatched =>
        hmisread (.unread row hrow hafter hmatched hunmatched hreported)⟩
      by_contra hnone
      push Not at hnone
      obtain ⟨state, hread, hstate⟩ := hreported
      obtain ⟨row, hrow, rfl⟩ := hreads state hread
      exact hmisread (.lateReport row.state hread (hnone row hrow) hstate hunmatched hnone)

end Verdicts

/-- `verify_echo` answers right exactly on the schedules where nothing is misread. -/
theorem verifyEcho_right_iff (deviceId : String) (expect : List Expectation) (db : GridDb)
    (rows : List ScheduledRow) (v : Verification rows) :
    ∃ echo, ((verifyEcho deviceId expect).run (withChoices gridSem)
        (db, verifying v.start v.answers)).1 = .ok echo ∧
      (Right rows v.began expect echo.confirmed ↔ ¬Misread rows v.began expect v.reads) := by
  obtain ⟨echo, hrun, hconfirmed⟩ := verifyEcho_run v.start v.answers
  refine ⟨echo, hrun, ?_⟩
  rw [hconfirmed]
  exact right_verdict_iff fun state h => (Verification.mem_reads h).1

/-- Where every row that is read was captured after verification began, and every row that
was captured after and matches is read, nothing is misread. -/
theorem not_misread {rows : List ScheduledRow} {began : ℚ} {expect : List Expectation}
    {reads : List DeviceState} (hafter : ∀ state ∈ reads, began < state.ts)
    (hread : ∀ row ∈ rows, began < row.state.ts → Matched expect row.state → row.state ∈ reads) :
    ¬Misread rows began expect reads := by
  rintro (⟨state, hstate, hlate, -, -⟩ | ⟨state, hstate, hlate, -, -, -⟩ |
    ⟨row, hrow, hcaptured, hmatched, hunmatched, -⟩)
  · exact absurd (hafter state hstate) hlate.not_gt
  · exact absurd (hafter state hstate) hlate.not_gt
  · exact hunmatched _ (hread row hrow hcaptured hmatched) hmatched

/-! ### A delayed row -/

/-- A breaker that was open for a moment at 110; the row arrives at 121. -/
def delayedRows : List ScheduledRow :=
  [⟨⟨100, some true, none⟩, 101⟩, ⟨⟨110, some false, none⟩, 121⟩]

/-- It is commanded to open at 120, and does not move. -/
def delayed : Verification delayedRows where
  began := 120
  start := some ⟨100, some true, none⟩
  polls := [(1205 / 10, some ⟨100, some true, none⟩), (121, some ⟨110, some false, none⟩)]
  start_newest := by decide +kernel
  polls_newest := by decide +kernel

/-- The opening is confirmed by the row of 110. -/
theorem delayed_confirmed :
    ∃ echo, ((verifyEcho "RTU-1" [.gridConnected false]).run (withChoices gridSem)
        ({ network := Network.empty }, verifying delayed.start delayed.answers)).1 = .ok echo ∧
      ¬Right delayedRows delayed.began [.gridConnected false] echo.confirmed := by
  refine ⟨_, rfl, fun h => ?_⟩
  obtain ⟨row, hrow, hafter, -⟩ := h.yes (by decide +kernel)
  exact absurd hafter (by
    revert row
    decide +kernel)

end DiepLab.EchoSchedule
