import DiepLab.Controls.Gate
import DiepLab.Library.Disturbed
import DiepLab.Library.Output

/-!
The audit trail of an action.

`control_audit` only grows, and the status in `control_actions` is overwritten.
An auditor who folds the events of an action should arrive at its status, by
legal transitions only. The row and its audit row are written by separate
statements, without a transaction: the status first and the event after it, and
in a dry run the other way round. When the database fails in between, the trail
and the status disagree, and nothing repairs that. `Completed` says that it does
not fail there, and `Exactly` that a request keeps the trail faithful if and
only if its statements are completed.
-/

namespace DiepLab.Controls

open StatementProgram

variable {P D W WC WStmt : Type} {WResp : WStmt → Type}
variable {wsem : WC → (q : WStmt) → W → Except Exc (WResp q) × W}

/-! ### Folding the trail -/

/-- The status after an event. -/
def AuditEvent.follow (before : Option ActionStatus) : AuditEvent → Option ActionStatus
  | .REQUESTED => some .PENDING
  | .APPROVED => some .APPROVED
  | .REJECTED => some .REJECTED
  | .DRYRUN => some .EXECUTED
  | .EXECUTED => some .EXECUTED
  | .FAILED => some .FAILED
  | .BLOCKED => before
  | .ROLLED_BACK => some .ROLLED_BACK

/-- An action may be executed once it is approved, and by a single operator
before that when it is a dry run or of low risk. -/
def Executable (row : ActionRow P D) (before : Option ActionStatus) : Prop :=
  before = some .APPROVED ∨ (before = some .PENDING ∧ (row.mode = .dry_run ∨ row.risk = .low))

instance (row : ActionRow P D) (before : Option ActionStatus) : Decidable (Executable row before) :=
  inferInstanceAs (Decidable (_ ∨ _))

/-- The transitions of an action. -/
def AuditEvent.Legal (row : ActionRow P D) (before : Option ActionStatus) : AuditEvent → Prop
  | .REQUESTED => before = none
  | .APPROVED => before = some .PENDING
  | .REJECTED => before = some .PENDING
  | .DRYRUN => row.mode = .dry_run ∧ Executable row before
  | .EXECUTED => row.mode = .live ∧ Executable row before
  | .FAILED => row.mode = .live ∧ Executable row before
  | .BLOCKED => row.mode = .live ∧ before ≠ none
  | .ROLLED_BACK => before = some .EXECUTED

instance (row : ActionRow P D) (before : Option ActionStatus) (e : AuditEvent) :
    Decidable (e.Legal row before) := by
  cases e <;> simp only [AuditEvent.Legal] <;> infer_instance

def folded (events : List AuditEvent) : Option ActionStatus := events.foldl AuditEvent.follow none

/-- Every event is a legal transition from the status before it. -/
def LegalTrail (row : ActionRow P D) : Option ActionStatus → List AuditEvent → Prop
  | _, [] => True
  | before, e :: events => e.Legal row before ∧ LegalTrail row (e.follow before) events

instance LegalTrail.decidable (row : ActionRow P D) :
    (before : Option ActionStatus) → (events : List AuditEvent) →
      Decidable (LegalTrail row before events)
  | _, [] => isTrue trivial
  | before, e :: events =>
      have := LegalTrail.decidable row (e.follow before) events
      inferInstanceAs (Decidable (e.Legal row before ∧ _))

/-- The events of an action, in the order in which they were inserted. -/
def ControlDb.trail (db : ControlDb P D) (actionId : String) : List AuditEvent :=
  (db.audit.filter fun row => row.actionId = actionId).map AuditRow.event

/-- The trail of an action tells its status, and what is no action has no
trail. -/
structure TrailOf (db : ControlDb P D) (actionId : String) : Prop where
  status : folded (db.trail actionId) = (db.get actionId).map ActionRow.status
  legal : ∀ row, db.get actionId = some row → LegalTrail row none (db.trail actionId)
  absent : db.get actionId = none → db.trail actionId = []

def Faithful (db : ControlDb P D) : Prop := ∀ actionId, TrailOf db actionId

theorem AuditEvent.Legal.same {a b : ActionRow P D} (hab : SameRequest a b)
    {before : Option ActionStatus} {e : AuditEvent} (h : e.Legal a before) :
    e.Legal b before := by
  cases e <;> simpa only [AuditEvent.Legal, Executable, hab.mode, hab.risk] using h

theorem LegalTrail.same {a b : ActionRow P D} (hab : SameRequest a b)
    {before : Option ActionStatus} {events : List AuditEvent} (h : LegalTrail a before events) :
    LegalTrail b before events := by
  induction events generalizing before with
  | nil => trivial
  | cons e events ih => exact ⟨h.1.same hab, ih h.2⟩

theorem legalTrail_append {row : ActionRow P D} {before : Option ActionStatus}
    {events : List AuditEvent} {e : AuditEvent} :
    LegalTrail row before (events ++ [e]) ↔
      LegalTrail row before events ∧ e.Legal row (events.foldl AuditEvent.follow before) := by
  induction events generalizing before with
  | nil => exact ⟨fun h => ⟨trivial, h.1⟩, fun h => ⟨h.2, trivial⟩⟩
  | cons e' events ih =>
      exact (and_congr_right fun _ => ih).trans and_assoc.symm

@[simp] theorem folded_append (events : List AuditEvent) (e : AuditEvent) :
    folded (events ++ [e]) = e.follow (folded events) := by
  simp [folded]

/-! ### What writes keep -/

namespace ControlDb

variable {db : ControlDb P D} {new : ActionRow P D}

theorem get_eq_none (h : new.actionId ∉ db.actions.map ActionRow.actionId) :
    db.get new.actionId = none := by
  cases hget : db.get new.actionId with
  | none => rfl
  | some row =>
      exact absurd (List.mem_map.mpr ⟨row, List.mem_of_find?_eq_some hget, get_actionId hget⟩) h

theorem get_insert_other {i : String} (h : new.actionId ≠ i) :
    ({ db with actions := db.actions ++ [new] } : ControlDb P D).get i = db.get i := by
  simp [get, List.find?_append, h]

end ControlDb

/-- The two tables are the same. -/
structure SameTables (a b : ControlDb P D) : Prop where
  actions : b.actions = a.actions
  audit : b.audit = a.audit

namespace SameTables

variable {a b c : ControlDb P D}

theorem refl (a : ControlDb P D) : SameTables a a := ⟨rfl, rfl⟩

theorem trans (hab : SameTables a b) (hbc : SameTables b c) : SameTables a c :=
  ⟨hbc.actions.trans hab.actions, hbc.audit.trans hab.audit⟩

theorem get (h : SameTables a b) (i : String) : b.get i = a.get i := by
  rw [ControlDb.get, ControlDb.get, h.actions]

theorem trail (h : SameTables a b) (i : String) : b.trail i = a.trail i := by
  rw [ControlDb.trail, ControlDb.trail, h.audit]

theorem faithful (h : SameTables a b) (ha : Faithful a) : Faithful b := by
  intro i
  obtain ⟨hstatus, hlegal, habsent⟩ := ha i
  rw [← h.trail, ← h.get] at hstatus
  rw [← h.trail, ← h.get] at habsent
  refine ⟨hstatus, fun row hrow => ?_, habsent⟩
  rw [h.trail]
  exact hlegal row (h.get i ▸ hrow)

end SameTables

/-- An event is recorded for an action, and its row is what the event says. The
other actions are as they were. -/
structure Recorded (a b : ControlDb P D) (i : String) (e : AuditEvent) : Prop where
  trail : b.trail i = a.trail i ++ [e]
  others : ∀ j, j ≠ i → b.get j = a.get j ∧ b.trail j = a.trail j
  row : ∃ row, b.get i = some row ∧ e.Legal row ((a.get i).map ActionRow.status) ∧
    e.follow ((a.get i).map ActionRow.status) = some row.status ∧
    ∀ row', a.get i = some row' → SameRequest row' row

theorem Recorded.faithful {a b : ControlDb P D} {i : String} {e : AuditEvent}
    (h : Recorded a b i e) (ha : Faithful a) : Faithful b := by
  intro j
  obtain ⟨hstatus, hlegal, habsent⟩ := ha j
  by_cases hj : j = i
  · subst hj
    obtain ⟨row, hrow, hallowed, hfollow, hsame⟩ := h.row
    refine ⟨?_, fun row' hrow' => ?_, fun hnone => absurd (hrow.symm.trans hnone) nofun⟩
    · rw [h.trail, folded_append, hstatus, hfollow, hrow]
      rfl
    · have heq : row = row' := Option.some.inj (hrow.symm.trans hrow')
      subst heq
      rw [h.trail, legalTrail_append]
      refine ⟨?_, ?_⟩
      · cases hold : a.get j with
        | none =>
            rw [habsent hold]
            trivial
        | some old => exact (hlegal old hold).same (hsame old hold)
      · rw [folded] at hstatus
        rwa [hstatus]
  · obtain ⟨hget, htrail⟩ := h.others j hj
    rw [← hget, ← htrail] at hstatus
    rw [← hget, ← htrail] at habsent
    refine ⟨hstatus, fun row hrow => ?_, habsent⟩
    rw [htrail]
    exact hlegal row (hget ▸ hrow)

/-- A status that no event of the trail tells. -/
theorem not_faithful {db : ControlDb P D} (i : String) (status : Option ActionStatus)
    (htrail : folded (db.trail i) = status) (hrow : (db.get i).map ActionRow.status ≠ status) :
    ¬ Faithful db :=
  fun h => hrow ((h i).status.symm.trans htrail)

/-! ### Requests -/

/-- How many statements complete what the statement has begun: the audit row of
a written row, with the read of the model version before it, and the status of
a dry run after its audit row. -/
def ControlStmt.owes : ControlStmt P D → ℕ
  | .insertAction _ => 2
  | .updateStatus _ (.executed .dryRun) _ => 0
  | .updateStatus .. => 2
  | .insertAudit row => if row.event = .DRYRUN then 1 else 0
  | _ => 0

/-- A state, and what the surroundings decide from there on. -/
abbrev Ahead (P D W WC : Type) := Plane P D W × (ℕ → ControlChoice × WC)

/-- When the statement goes through, those that complete it do not fail. -/
def ControlStmt.Completed (q : ControlStmt P D) (x : Ahead P D W WC) : Prop :=
  q.failure (x.2 0).1 x.1.db = none → ∀ n < q.owes, (x.2 (n + 1)).1.fails = none

def Completed : ControlStmt P D ⊕ WStmt → Ahead P D W WC → Prop
  | .inl q, x => q.Completed x
  | .inr _, _ => True

instance (q : ControlStmt P D ⊕ WStmt) (x : Ahead P D W WC) : Decidable (Completed q x) := by
  cases q <;> simp only [Completed, ControlStmt.Completed] <;> infer_instance

variable (wsem) in
/-- A request leaves a faithful trail if and only if its statements are
completed. -/
def Exactly {α : Type} (p : PlaneProg P D WResp α) (x : Ahead P D W WC) : Prop :=
  Faithful (p.run (withChoices (planeSem wsem)) x).2.1.db ↔
    p.Throughout (withChoices (planeSem wsem)) Completed x

/-- The statement writes neither table. -/
def OnlyReads : ControlStmt P D ⊕ WStmt → Prop
  | .inl (.insertAction _) => False
  | .inl (.updateStatus ..) => False
  | .inl (.insertAudit _) => False
  | _ => True

section Exactly

variable {α β : Type} {x : Ahead P D W WC}

theorem exactly_raise {e : Exc} (hx : Faithful x.1.db) :
    Exactly wsem (.raise e : PlaneProg P D WResp α) x := iff_of_true hx trivial

theorem exactly_bind {p : PlaneProg P D WResp β} {f : β → PlaneProg P D WResp α}
    (hp : p.Throughout (withChoices (planeSem wsem)) Completed x)
    (herror : ∀ e, (p.run (withChoices (planeSem wsem)) x).1 = .error e →
      Faithful (p.run (withChoices (planeSem wsem)) x).2.1.db)
    (hok : ∀ a, (p.run (withChoices (planeSem wsem)) x).1 = .ok a →
      Exactly wsem (f a) (p.run (withChoices (planeSem wsem)) x).2) :
    Exactly wsem (p >>= f) x := by
  rw [Exactly, Prog.throughout_bind, Prog.run_bind]
  generalize p.run (withChoices (planeSem wsem)) x = out at herror hok ⊢
  obtain ⟨r, x'⟩ := out
  cases r with
  | ok a =>
      refine (hok a rfl).trans ⟨fun h => ⟨hp, fun b hb => ?_⟩, fun h => h.2 a rfl⟩
      injection hb with hb
      exact hb ▸ h
  | error e => exact iff_of_true (herror e rfl) ⟨hp, fun _ ha => nomatch ha⟩

theorem onlyReads_sem (c : ControlChoice × WC) (q : ControlStmt P D ⊕ WStmt) (s : Plane P D W)
    (hq : OnlyReads q) : SameTables s.db (planeSem wsem c q s).2.db := by
  cases q with
  | inr q => exact .refl _
  | inl q =>
      rcases controlSem_cases c.1 q s.db with hsem | ⟨-, hsem⟩
      · simp only [planeSem, hsem]
        exact .refl _
      · simp only [planeSem, hsem]
        cases q with
        | insertAction row => exact hq.elim
        | updateStatus i u read => exact hq.elim
        | insertAudit row => exact hq.elim
        | _ => exact ⟨rfl, rfl⟩

/-- A part that only reads. -/
theorem run_reads {p : PlaneProg P D WResp α} (hp : p.Issues OnlyReads) (x : Ahead P D W WC) :
    SameTables x.1.db (p.run (withChoices (planeSem wsem)) x).2.1.db := by
  induction p generalizing x with
  | ret a => exact .refl _
  | raise e => exact .refl _
  | stmt q k ih =>
      exact (onlyReads_sem (x.2 0) q x.1 hp.1).trans
        (ih _ (hp.2 _) (withChoices (planeSem wsem) q x).2)

theorem completed_reads (q : ControlStmt P D ⊕ WStmt) (x : Ahead P D W WC) (hq : OnlyReads q) :
    Completed q x := by
  cases q with
  | inr q => trivial
  | inl q =>
      intro _ n hn
      cases q with
      | insertAction row => exact hq.elim
      | updateStatus i u read => exact hq.elim
      | insertAudit row => exact hq.elim
      | _ => exact absurd hn (Nat.not_lt_zero n)

theorem throughout_reads {p : PlaneProg P D WResp α} (hp : p.Issues OnlyReads)
    (x : Ahead P D W WC) : p.Throughout (withChoices (planeSem wsem)) Completed x :=
  hp.throughout completed_reads x

theorem exactly_reads_bind {p : PlaneProg P D WResp β} {f : β → PlaneProg P D WResp α}
    (hp : p.Issues OnlyReads) (hx : Faithful x.1.db)
    (hf : ∀ a x', SameTables x.1.db x'.1.db → (p.run (withChoices (planeSem wsem)) x).1 = .ok a →
      Exactly wsem (f a) x') : Exactly wsem (p >>= f) x :=
  exactly_bind (throughout_reads hp x) (fun _ _ => (run_reads hp x).faithful hx)
    fun a ha => hf a _ (run_reads hp x) ha

/-- A part that only reads, the exceptions of which are caught. -/
theorem exactly_attempt_reads_bind {p : PlaneProg P D WResp β} {h : Exc → PlaneProg P D WResp β}
    {f : β → PlaneProg P D WResp α} (hp : p.Issues OnlyReads) (hx : Faithful x.1.db)
    (hf : ∀ a x', SameTables x.1.db x'.1.db → Exactly wsem (f a) x')
    (hh : ∀ e x', SameTables x.1.db x'.1.db → Exactly wsem (h e >>= f) x') :
    Exactly wsem (tryCatch p h >>= f) x := by
  induction p generalizing x with
  | ret a => exact hf a x (.refl _)
  | raise e => exact hh e x (.refl _)
  | stmt q k ih =>
      have hsame : SameTables x.1.db (planeSem wsem (x.2 0) q x.1).2.db :=
        onlyReads_sem (x.2 0) q x.1 hp.1
      have hrest := ih (withChoices (planeSem wsem) q x).1 (hp.2 _)
        (x := (withChoices (planeSem wsem) q x).2) (hsame.faithful hx)
        (fun a x' h' => hf a x' (hsame.trans h')) fun e x' h' => hh e x' (hsame.trans h')
      exact hrest.trans (and_iff_right (completed_reads q x hp.1)).symm

/-- What issues nothing may follow. -/
theorem Exactly.then {p : PlaneProg P D WResp β} {f : β → PlaneProg P D WResp α}
    (h : Exactly wsem p x) (hf : ∀ a, (∃ b, f a = .ret b) ∨ ∃ e, f a = .raise e) :
    Exactly wsem (p >>= f) x := by
  have hstate : ((p >>= f).run (withChoices (planeSem wsem)) x).2 =
      (p.run (withChoices (planeSem wsem)) x).2 := by
    rw [Prog.run_bind]
    generalize p.run (withChoices (planeSem wsem)) x = out
    obtain ⟨r, x'⟩ := out
    cases r with
    | error e => rfl
    | ok a => rcases hf a with ⟨b, hb⟩ | ⟨e, he⟩ <;> simp [*]
  rw [Exactly, Prog.throughout_bind, hstate]
  refine h.trans (and_iff_left fun a _ => ?_).symm
  rcases hf a with ⟨b, hb⟩ | ⟨e, he⟩
  · rw [hb]
    trivial
  · rw [he]
    trivial

theorem exactly_reads {p : PlaneProg P D WResp α} (hp : p.Issues OnlyReads)
    (hx : Faithful x.1.db) : Exactly wsem p x :=
  iff_of_true ((run_reads hp x).faithful hx) (throughout_reads hp x)

/-- The state after a statement that has gone through. -/
def Ahead.after (x : Ahead P D W WC) (q : ControlStmt P D) : Ahead P D W WC :=
  ({ x.1 with db := (controlExec (x.2 0).1 q x.1.db).2 }, fun n => x.2 (n + 1))

theorem run_call_through {q : ControlStmt P D} (hthrough : q.failure (x.2 0).1 x.1.db = none) :
    (Prog.call (Sum.inl q) : PlaneProg P D WResp (ControlResp q)).run
        (withChoices (planeSem wsem)) x =
      (.ok (controlExec (x.2 0).1 q x.1.db).1, x.after q) := by
  rw [Prog.run_call]
  simp only [withChoices, planeSem, controlSem, hthrough, Ahead.after]
  rfl

theorem run_call_failed {q : ControlStmt P D} {e : Exc}
    (hfailed : q.failure (x.2 0).1 x.1.db = some e) :
    (Prog.call (Sum.inl q) : PlaneProg P D WResp (ControlResp q)).run
        (withChoices (planeSem wsem)) x =
      (.error e, (x.1, fun n => x.2 (n + 1))) := by
  rw [Prog.run_call]
  simp only [withChoices, planeSem, controlSem, hfailed]
  rfl

/-- The statement fails, and with it the program. -/
theorem exactly_call_failed {q : ControlStmt P D}
    {f : Sum.elim (ControlResp (P := P) (D := D)) WResp (.inl q) → PlaneProg P D WResp α}
    (hx : Faithful x.1.db) (hfailed : q.failure (x.2 0).1 x.1.db ≠ none) :
    Exactly wsem (Prog.call (Sum.inl q) >>= f) x := by
  obtain ⟨e, he⟩ := Option.ne_none_iff_exists'.mp hfailed
  refine exactly_bind (Prog.throughout_call.mpr fun hnone => absurd hnone hfailed) ?_ ?_
  · intro _ _
    rw [run_call_failed he]
    exact hx
  · intro a ha
    rw [run_call_failed he] at ha
    exact nomatch ha

/-- The statement goes through, and is completed. -/
theorem exactly_call_completed {q : ControlStmt P D}
    {f : Sum.elim (ControlResp (P := P) (D := D)) WResp (.inl q) → PlaneProg P D WResp α}
    (hthrough : q.failure (x.2 0).1 x.1.db = none) (hcompleted : q.Completed x)
    (hf : Exactly wsem (f (controlExec (x.2 0).1 q x.1.db).1) (x.after q)) :
    Exactly wsem (Prog.call (Sum.inl q) >>= f) x := by
  refine exactly_bind (Prog.throughout_call.mpr hcompleted) ?_ ?_
  · intro e he
    rw [run_call_through hthrough] at he
    exact nomatch he
  · intro a ha
    rw [run_call_through hthrough] at ha ⊢
    injection ha with ha
    exact ha ▸ hf

/-- The statement goes through, and is not completed. -/
theorem exactly_call_broken {q : ControlStmt P D}
    {f : Sum.elim (ControlResp (P := P) (D := D)) WResp (.inl q) → PlaneProg P D WResp α}
    (hthrough : q.failure (x.2 0).1 x.1.db = none) (hbroken : ¬ q.Completed x)
    (hf : ¬ Faithful ((f (controlExec (x.2 0).1 q x.1.db).1).run (withChoices (planeSem wsem))
      (x.after q)).2.1.db) :
    Exactly wsem (Prog.call (Sum.inl q) >>= f) x := by
  refine iff_of_false ?_ fun h => ?_
  · rwa [Prog.run_bind, run_call_through hthrough]
  · exact hbroken (Prog.throughout_call (P := Completed).mp (Prog.throughout_bind.mp h).1)

/-! ### Pairs of statements -/

/-- What `_audit` adds. -/
def ControlDb.record (db : ControlDb P D) (row : AuditRow D) : ControlDb P D :=
  { db with audit := db.audit ++ [row] }

theorem trail_record (db : ControlDb P D) (row : AuditRow D) (i : String) :
    (db.record row).trail i =
      if row.actionId = i then db.trail i ++ [row.event] else db.trail i := by
  rw [ControlDb.trail, ControlDb.record, List.filter_append, List.map_append]
  split <;> rename_i h <;> simp [h, ControlDb.trail]

section Audit

variable {i : String} {e : AuditEvent} {actor : String} {detail : AuditDetail D}

theorem run_currentModelVersion (h : (x.2 0).1.fails = none) :
    (Db.currentModelVersion : PlaneProg P D WResp (Option ℕ)).run (withChoices (planeSem wsem)) x =
      (.ok (x.2 0).1.modelVersion, (x.1, fun n => x.2 (n + 1))) :=
  run_call_through (congrArg (Option.map Exc.other) h)

variable (wsem i e actor detail) in
/-- An audit row whose two statements do not fail. -/
theorem run_audit_completed (h₀ : (x.2 0).1.fails = none) (h₁ : (x.2 1).1.fails = none) :
    ∃ row : AuditRow D, row.actionId = i ∧ row.event = e ∧
      (audit i e actor detail : PlaneProg P D WResp Unit).run (withChoices (planeSem wsem)) x =
        (.ok (), ({ x.1 with db := x.1.db.record row }, fun n => x.2 (n + 2))) := by
  refine ⟨⟨i, e, actor, detail, (x.2 0).1.modelVersion⟩, rfl, rfl, ?_⟩
  rw [audit, Prog.run_bind, run_currentModelVersion h₀]
  exact run_call_through (congrArg (Option.map Exc.other) h₁)

variable (wsem i e actor detail) in
/-- An audit row one of whose statements fails. -/
theorem run_audit_failed (h : ¬ ((x.2 0).1.fails = none ∧ (x.2 1).1.fails = none)) :
    ∃ err stream, (audit i e actor detail : PlaneProg P D WResp Unit).run
      (withChoices (planeSem wsem)) x = (.error err, (x.1, stream)) := by
  rw [audit, Prog.run_bind]
  by_cases h₀ : (x.2 0).1.fails = none
  · obtain ⟨err, h₁⟩ := Option.ne_none_iff_exists'.mp fun h₁ => h ⟨h₀, h₁⟩
    rw [run_currentModelVersion h₀]
    exact ⟨.other err, _, run_call_failed (congrArg (Option.map Exc.other) h₁)⟩
  · obtain ⟨err, h₀⟩ := Option.ne_none_iff_exists'.mp h₀
    have hread : (Db.currentModelVersion : PlaneProg P D WResp (Option ℕ)).run
        (withChoices (planeSem wsem)) x = (.error (.other err), (x.1, fun n => x.2 (n + 1))) :=
      run_call_failed (congrArg (Option.map Exc.other) h₀)
    rw [hread]
    exact ⟨.other err, _, rfl⟩

theorem throughout_audit (he : e ≠ .DRYRUN) :
    (audit i e actor detail : PlaneProg P D WResp Unit).Throughout
      (withChoices (planeSem wsem)) Completed x := by
  refine Prog.throughout_bind.mpr ⟨Prog.throughout_call.mpr fun _ n hn => ?_, fun v _ =>
    Prog.throughout_call.mpr fun _ n hn => ?_⟩
  · exact absurd hn (Nat.not_lt_zero n)
  · rw [ControlStmt.owes, if_neg he] at hn
    exact absurd hn (Nat.not_lt_zero n)

/-- The row first, then its audit row. -/
theorem exactly_write_audit_bind {q : ControlStmt P D} {k : Unit → PlaneProg P D WResp α}
    (hx : Faithful x.1.db) (howes : q.owes = 2) (he : e ≠ .DRYRUN)
    (hbroken : q.failure (x.2 0).1 x.1.db = none → ¬ Faithful (x.after q).1.db)
    (hrecorded : q.failure (x.2 0).1 x.1.db = none → ∀ row : AuditRow D, row.actionId = i →
      row.event = e → Recorded x.1.db ((x.after q).1.db.record row) i e)
    (hk : ∀ x', Faithful x'.1.db → Exactly wsem (k ()) x') :
    Exactly wsem (Prog.call (Sum.inl q) >>= fun _ => audit i e actor detail >>= k) x := by
  by_cases hthrough : q.failure (x.2 0).1 x.1.db = none
  · by_cases hpaid : ((x.after q).2 0).1.fails = none ∧ ((x.after q).2 1).1.fails = none
    · refine exactly_call_completed hthrough (fun _ n hn => ?_) ?_
      · rw [howes] at hn
        obtain rfl | rfl : n = 0 ∨ n = 1 := by omega
        · exact hpaid.1
        · exact hpaid.2
      · obtain ⟨row, hi, hevent, hrun⟩ :=
          run_audit_completed wsem i e actor detail hpaid.1 hpaid.2
        refine exactly_bind (throughout_audit he) (fun err herr => ?_) fun a _ => ?_
        · rw [hrun] at herr
          exact nomatch herr
        · rw [hrun]
          exact hk _ ((hrecorded hthrough row hi hevent).faithful hx)
    · refine exactly_call_broken hthrough (fun hcompleted => hpaid ?_) ?_
      · have hnext := hcompleted hthrough
        exact ⟨hnext 0 (by omega), hnext 1 (by omega)⟩
      · obtain ⟨err, stream, hrun⟩ := run_audit_failed wsem i e actor detail hpaid
        rw [Prog.run_bind, hrun]
        exact hbroken hthrough
  · exact exactly_call_failed hx hthrough

/-- An audit row on which the status of a stored row has followed. -/
theorem recorded_update {db : ControlDb P D} {row : ActionRow P D} {u : StatusUpdate D}
    {new : AuditRow D} (hrow : db.get i = some row) (hlegal : e.Legal row (some row.status))
    (hfollow : e.follow (some row.status) = some u.status) (hi : new.actionId = i)
    (hevent : new.event = e) : Recorded db ((db.update i u).record new) i e where
  trail := by
    rw [trail_record, if_pos hi, hevent]
    rfl
  others j hj := by
    refine ⟨(ControlDb.get_update db i j u).trans (if_neg (Ne.symm hj)), ?_⟩
    rw [trail_record, if_neg fun heq => hj (heq.symm.trans hi)]
    rfl
  row := by
    refine ⟨u.apply row, ?_, ?_⟩
    · refine (ControlDb.get_update db i i u).trans ?_
      rw [if_pos rfl, hrow]
      rfl
    · rw [hrow]
      refine ⟨hlegal.same (u.apply_sameRequest row), ?_, fun row' hrow' => ?_⟩
      · rw [StatusUpdate.apply_status]
        exact hfollow
      · exact Option.some.inj hrow' ▸ u.apply_sameRequest row

theorem recorded_blocked {db : ControlDb P D} {row : ActionRow P D} {new : AuditRow D}
    (hrow : db.get i = some row) (hlive : row.mode = .live) (hi : new.actionId = i)
    (hevent : new.event = .BLOCKED) : Recorded db (db.record new) i .BLOCKED where
  trail := by rw [trail_record, if_pos hi, hevent]
  others j hj := ⟨rfl, by rw [trail_record, if_neg fun heq => hj (heq.symm.trans hi)]⟩
  row := by
    refine ⟨row, hrow, ?_⟩
    rw [hrow]
    exact ⟨⟨hlive, nofun⟩, rfl, fun row' hrow' => Option.some.inj hrow' ▸ .refl row⟩

theorem not_faithful_update {db : ControlDb P D} {row : ActionRow P D} {u : StatusUpdate D}
    (hdb : Faithful db) (hrow : db.get i = some row) (hmoves : row.status ≠ u.status) :
    ¬ Faithful (db.update i u) := by
  refine not_faithful i (some row.status) ?_ ?_
  · refine (hdb i).status.trans ?_
    rw [hrow]
    rfl
  · rw [ControlDb.get_update, if_pos rfl, hrow]
    intro heq
    injection heq with heq
    exact hmoves (heq.symm.trans (u.apply_status row))

theorem new_of_through {new : ActionRow P D} {c : ControlChoice} {db : ControlDb P D}
    (h : (ControlStmt.insertAction new).failure c db = none) :
    new.actionId ∉ db.actions.map ActionRow.actionId := by
  intro hmem
  rw [ControlStmt.failure, if_pos hmem] at h
  cases h

/-- The row of a request, and its audit row. -/
theorem recorded_insert {db : ControlDb P D} {row : ActionRow P D} {new : AuditRow D}
    (hrow : row.actionId ∉ db.actions.map ActionRow.actionId) (hstatus : row.status = .PENDING)
    (hi : new.actionId = row.actionId) (hevent : new.event = .REQUESTED) :
    Recorded db (({ db with actions := db.actions ++ [row] } : ControlDb P D).record new)
      row.actionId .REQUESTED where
  trail := by
    rw [trail_record, if_pos hi, hevent]
    rfl
  others j hj := by
    refine ⟨ControlDb.get_insert_other (Ne.symm hj), ?_⟩
    rw [trail_record, if_neg fun heq => hj (heq.symm.trans hi)]
    rfl
  row := by
    refine ⟨row, ControlDb.get_insert_new hrow, ?_⟩
    rw [ControlDb.get_eq_none hrow]
    exact ⟨rfl, (congrArg some hstatus).symm, fun _ h => nomatch h⟩

theorem not_faithful_insert {db : ControlDb P D} {row : ActionRow P D} (hdb : Faithful db)
    (hrow : row.actionId ∉ db.actions.map ActionRow.actionId) :
    ¬ Faithful ({ db with actions := db.actions ++ [row] } : ControlDb P D) := by
  refine not_faithful row.actionId none ?_ ?_
  · refine (hdb row.actionId).status.trans ?_
    rw [ControlDb.get_eq_none hrow]
    rfl
  · rw [ControlDb.get_insert_new hrow]
    exact nofun

/-- A status, then its audit row. -/
theorem exactly_update_audit_bind {row read : ActionRow P D} {u : StatusUpdate D}
    {k : Unit → PlaneProg P D WResp α} (hx : Faithful x.1.db) (hrow : x.1.db.get i = some row)
    (howes : (ControlStmt.updateStatus i u read).owes = 2) (he : e ≠ .DRYRUN)
    (hlegal : e.Legal row (some row.status)) (hfollow : e.follow (some row.status) = some u.status)
    (hmoves : row.status ≠ u.status) (hk : ∀ x', Faithful x'.1.db → Exactly wsem (k ()) x') :
    Exactly wsem (Db.updateStatus i u read >>= fun _ => audit i e actor detail >>= k) x := by
  refine exactly_write_audit_bind hx howes he ?_ ?_ hk
  · exact fun _ => not_faithful_update hx hrow hmoves
  · exact fun _ new hi hevent => recorded_update hrow hlegal hfollow hi hevent

/-- A refusal is recorded, and changes no status. -/
theorem exactly_blocked {row : ActionRow P D} {exc : Exc} (hx : Faithful x.1.db)
    (hrow : x.1.db.get i = some row) (hlive : row.mode = .live) :
    Exactly wsem (audit i .BLOCKED actor detail >>= fun _ => throw exc :
      PlaneProg P D WResp α) x := by
  have hrun : Faithful ((audit i .BLOCKED actor detail : PlaneProg P D WResp Unit).run
      (withChoices (planeSem wsem)) x).2.1.db := by
    -- either both statements of the audit row go through, or nothing is written
    by_cases hfails : (x.2 0).1.fails = none ∧ (x.2 1).1.fails = none
    · obtain ⟨new, hi, hevent, hrun⟩ :=
        run_audit_completed wsem i .BLOCKED actor detail hfails.1 hfails.2
      rw [hrun]
      exact (recorded_blocked hrow hlive hi hevent).faithful hx
    · obtain ⟨err, stream, hrun⟩ := run_audit_failed wsem i .BLOCKED actor detail hfails
      rw [hrun]
      exact hx
  exact exactly_bind (throughout_audit nofun) (fun _ _ => hrun) fun _ _ => exactly_raise hrun

/-- The audit row of a dry run, then its status. -/
theorem exactly_audit_dryRun_bind {row : ActionRow P D} {k : Unit → PlaneProg P D WResp α}
    (hx : Faithful x.1.db) (hrow : x.1.db.get i = some row) (hmode : row.mode = .dry_run)
    (hstatus : Executable row (some row.status))
    (hk : ∀ x', Faithful x'.1.db → Exactly wsem (k ()) x') :
    Exactly wsem (audit i .DRYRUN actor detail >>= fun _ =>
      Db.updateStatus i (.executed .dryRun) row >>= k) x := by
  rw [audit, Prog.bind_assoc]
  -- the model version is read first; whether that fails changes nothing
  refine exactly_reads_bind ((Prog.issues_call _).mpr trivial) hx fun version x₁ h₁ _ => ?_
  have hx₁ := h₁.faithful hx
  have hrow₁ := (h₁.get i).trans hrow
  by_cases hthrough : (x₁.2 0).1.fails = none
  · by_cases hpaid : (x₁.2 1).1.fails = none
    · refine exactly_call_completed (congrArg (Option.map Exc.other) hthrough) (fun _ n hn => ?_) ?_
      · obtain rfl : n = 0 := Nat.lt_one_iff.mp hn
        exact hpaid
      · refine exactly_call_completed (congrArg (Option.map Exc.other) hpaid) (fun _ n hn => ?_) ?_
        · exact absurd hn (Nat.not_lt_zero n)
        · refine hk _ (Recorded.faithful (i := i) (e := .DRYRUN) ?_ hx₁)
          exact recorded_update hrow₁ ⟨hmode, hstatus⟩ rfl rfl rfl
    · refine exactly_call_broken (congrArg (Option.map Exc.other) hthrough)
        (fun hcompleted => ?_) ?_
      · exact hpaid (hcompleted (congrArg (Option.map Exc.other) hthrough) 0 Nat.one_pos)
      · obtain ⟨err, herr⟩ := Option.ne_none_iff_exists'.mp hpaid
        have hrun : (Db.updateStatus i (.executed .dryRun) row : PlaneProg P D WResp Unit).run
            (withChoices (planeSem wsem))
            (x₁.after (.insertAudit ⟨i, .DRYRUN, actor, detail, version⟩)) =
              (.error (.other err), _) := run_call_failed (congrArg (Option.map Exc.other) herr)
        rw [Prog.run_bind, hrun]
        refine not_faithful i (some .EXECUTED) ?_ ?_
        · refine (congrArg folded (trail_record _ _ _)).trans ?_
          rw [if_pos rfl, folded_append]
          rfl
        · refine fun heq => ?_
          have hexecuted : some row.status = some ActionStatus.EXECUTED := by
            rw [← heq]
            exact (congrArg (Option.map ActionRow.status) hrow₁).symm
          rw [hexecuted] at hstatus
          exact absurd hstatus (by simp [Executable])
  · exact exactly_call_failed hx₁ fun hnone => hthrough (by simpa [ControlStmt.failure] using hnone)

end Audit

/-! ### Endpoints -/

theorem refreshGauges_reads : (refreshGauges : PlaneProg P D WResp Unit).Issues OnlyReads := by
  refine Prog.Issues.attempt ?_ fun _ => trivial
  exact Prog.Issues.bind ((Prog.issues_call _).mpr trivial) fun _ =>
    Prog.Issues.bind ((Prog.issues_call _).mpr trivial) fun _ => trivial

theorem world_reads (p : Prog WResp Exc α) :
    (p.inr : PlaneProg P D WResp α).Issues OnlyReads := Prog.issues_inr (fun _ => trivial) p

/-- What is left of an endpoint after its audit row. -/
theorem exactly_closing {endpoint : Endpoint} {i : String} (hx : Faithful x.1.db) :
    Exactly wsem (refreshGauges >>= fun _ => (Db.getAction i >>= fun row =>
      Db.respond endpoint i >>= fun _ => pure row : PlaneProg P D WResp _)) x := by
  refine exactly_reads ?_ hx
  refine refreshGauges_reads.bind fun _ => Prog.Issues.bind ?_ fun row => ?_
  · exact (Prog.issues_call _).mpr trivial
  · exact Prog.Issues.bind ((Prog.issues_call _).mpr trivial) fun _ => trivial

theorem answer_getAction {i : String} {found : Option (ActionRow P D)}
    (h : ((Db.getAction i : PlaneProg P D WResp _).run (withChoices (planeSem wsem)) x).1 =
      .ok found) : x.1.db.get i = found := by
  rw [show (Db.getAction i : PlaneProg P D WResp _).run (withChoices (planeSem wsem)) x =
    withChoices (planeSem wsem) (.inl (.getAction i)) x from Prog.run_call ..] at h
  have hsem := controlSem_ok
    (show (controlSem (x.2 0).1 (.getAction i) x.1.db).1 = .ok found from h)
  have hanswer := (congrArg Prod.fst hsem).symm.trans h
  injection hanswer

/-- The row that is fetched is the stored one. -/
theorem exactly_fetch_bind {i : String} {principal : Principal}
    {k : ActionRow P D → PlaneProg P D WResp α} (hx : Faithful x.1.db)
    (hk : ∀ row x', Faithful x'.1.db → x'.1.db.get i = some row → Exactly wsem (k row) x') :
    Exactly wsem (fetch i principal >>= k) x := by
  rw [fetch, Prog.bind_assoc]
  refine exactly_reads_bind ((Prog.issues_call _).mpr trivial) hx fun found x₁ h₁ hfound => ?_
  have hx₁ := h₁.faithful hx
  cases found with
  | none => exact exactly_raise hx₁
  | some row =>
      have hrow := answer_getAction hfound
      simp only [Prog.bind_assoc]
      refine exactly_reads_bind (Prog.issues_raiseIf _ _) hx₁ fun _ x₂ h₂ _ => ?_
      exact hk row x₂ (h₂.faithful hx₁) ((h₂.get i).trans ((h₁.get i).trans hrow))

theorem exactly_raiseIf_bind {c : Prop} [Decidable c] {e : Exc}
    {k : Unit → PlaneProg P D WResp α} (hx : Faithful x.1.db)
    (hk : ¬ c → Exactly wsem (k ()) x) : Exactly wsem (Prog.raiseIf c e >>= k) x := by
  unfold Prog.raiseIf
  split
  · exact exactly_raise hx
  · exact hk ‹_›

theorem exactly_handlerFor_bind {handlers : Registry P D WResp} {actionType detail : String}
    {k : ControlHandler P D WResp → PlaneProg P D WResp α} (hx : Faithful x.1.db)
    (hk : ∀ handler, Exactly wsem (k handler) x) :
    Exactly wsem (handlerFor handlers actionType detail >>= k) x := by
  unfold handlerFor
  split
  · exact exactly_raise hx
  · exact hk _

theorem exactly_approve (i : String) (reason : Option String) (principal : Principal)
    (hx : Faithful x.1.db) : Exactly wsem (approve i reason principal) x := by
  refine exactly_fetch_bind hx fun row x₁ hx₁ hrow => ?_
  refine exactly_raiseIf_bind hx₁ fun hpending => exactly_raiseIf_bind hx₁ fun _ => ?_
  rw [not_not] at hpending
  refine exactly_update_audit_bind hx₁ hrow rfl nofun ?_ rfl ?_ fun _ => exactly_closing
  · exact congrArg some hpending
  · rw [hpending]
    exact nofun

theorem exactly_reject (i : String) (reason : Option String) (principal : Principal)
    (hx : Faithful x.1.db) : Exactly wsem (reject i reason principal) x := by
  refine exactly_fetch_bind hx fun row x₁ hx₁ hrow => ?_
  refine exactly_raiseIf_bind hx₁ fun hpending => ?_
  rw [not_not] at hpending
  refine exactly_update_audit_bind hx₁ hrow rfl nofun ?_ rfl ?_ fun _ => exactly_closing
  · exact congrArg some hpending
  · rw [hpending]
    exact nofun

theorem exactly_rollback (handlers : Registry P D WResp) (i : String) (principal : Principal)
    (hx : Faithful x.1.db) : Exactly wsem (rollback handlers i principal) x := by
  refine exactly_fetch_bind hx fun row x₁ hx₁ hrow => ?_
  refine exactly_raiseIf_bind hx₁ fun hexecuted => exactly_handlerFor_bind hx₁ fun handler => ?_
  rw [not_not] at hexecuted
  refine exactly_reads_bind ((Prog.issues_call _).mpr trivial) hx₁ fun _ x₂ h₂ _ => ?_
  have hx₂ := h₂.faithful hx₁
  refine exactly_reads_bind (world_reads _) hx₂ fun after x₃ h₃ _ => ?_
  have hrow₃ := (h₃.get i).trans ((h₂.get i).trans hrow)
  refine exactly_update_audit_bind (h₃.faithful hx₂) hrow₃ rfl nofun ?_ rfl ?_
    fun _ => exactly_closing
  · exact congrArg some hexecuted
  · rw [hexecuted]
    exact nofun

theorem exactly_executeDryRun {row : ActionRow P D} {i : String} (principal : Principal)
    (hx : Faithful x.1.db) (hrow : x.1.db.get i = some row) (hmode : row.mode = .dry_run) :
    Exactly wsem (executeDryRun row i principal) x := by
  refine exactly_raiseIf_bind hx fun hstatus => ?_
  refine exactly_audit_dryRun_bind hx hrow hmode ?_ fun x₁ hx₁ => ?_
  · rcases Decidable.or_iff_not_not_and_not.mpr hstatus with h | h
    · exact Or.inr ⟨congrArg some h, Or.inl hmode⟩
    · exact Or.inl (congrArg some h)
  · refine exactly_reads ?_ hx₁
    refine refreshGauges_reads.bind fun _ => ?_
    refine Prog.Issues.bind ((Prog.issues_call _).mpr trivial) fun after => ?_
    cases after with
    | none => trivial
    | some after => exact Prog.Issues.bind ((Prog.issues_call _).mpr trivial) fun _ => trivial

theorem Executable.moves {row : ActionRow P D} {status : ActionStatus}
    (h : Executable row (some row.status)) (hpending : status ≠ .PENDING)
    (happroved : status ≠ .APPROVED) : row.status ≠ status := by
  rintro rfl
  rcases h with h | ⟨h, -⟩
  · exact happroved (Option.some.inj h)
  · exact hpending (Option.some.inj h)

/-- Behind the gates a live action is one that may be executed. -/
theorem exactly_liveGates_bind {row : ActionRow P D} {i : String} {principal : Principal}
    {k : Bool → PlaneProg P D WResp α} (hx : Faithful x.1.db) (hrow : x.1.db.get i = some row)
    (hlive : row.mode = .live)
    (hk : ∀ enabled x', Faithful x'.1.db → x'.1.db.get i = some row →
      Executable row (some row.status) → Exactly wsem (k enabled) x') :
    Exactly wsem (liveGates row i principal >>= k) x := by
  rw [liveGates, Prog.bind_assoc]
  refine exactly_reads_bind ((Prog.issues_call _).mpr trivial) hx fun enabled x₁ h₁ _ => ?_
  have hx₁ := h₁.faithful hx
  have hrow₁ := (h₁.get i).trans hrow
  split
  · rw [Prog.bind_assoc]
    exact exactly_blocked hx₁ hrow₁ hlive
  · split
    · split
      · rw [Prog.bind_assoc]
        exact exactly_blocked hx₁ hrow₁ hlive
      · rename_i happroved
        exact hk enabled x₁ hx₁ hrow₁ (Or.inl (congrArg some (not_not.mp happroved)))
    · rename_i hrisk
      rw [Prog.bind_assoc]
      refine exactly_raiseIf_bind hx₁ fun hstatus => hk enabled x₁ hx₁ hrow₁ ?_
      have hlow : row.risk = .low := by
        cases hr : row.risk with
        | low => rfl
        | high => exact absurd hr hrisk
      rcases Decidable.or_iff_not_not_and_not.mpr hstatus with h | h
      · exact Or.inr ⟨congrArg some h, Or.inr hlow⟩
      · exact Or.inl (congrArg some h)

/-- An actuation that fails is recorded as such. -/
theorem exactly_actuate_bind {handler : ControlHandler P D WResp} {row : ActionRow P D}
    {i : String} {principal : Principal} {k : D → PlaneProg P D WResp α}
    (hx : Faithful x.1.db) (hrow : x.1.db.get i = some row) (hlive : row.mode = .live)
    (hstatus : Executable row (some row.status))
    (hk : ∀ after x', Faithful x'.1.db → x'.1.db.get i = some row → Exactly wsem (k after) x') :
    Exactly wsem (actuate handler row i principal >>= k) x := by
  refine exactly_attempt_reads_bind (world_reads _) hx (fun after x' h' => ?_) fun exc x' h' => ?_
  · exact hk after x' (h'.faithful hx) ((h'.get i).trans hrow)
  · split
    · exact exactly_raise (h'.faithful hx)
    · simp only [Prog.bind_assoc]
      refine exactly_update_audit_bind (h'.faithful hx) ((h'.get i).trans hrow) rfl nofun
        ⟨hlive, hstatus⟩ rfl (hstatus.moves nofun nofun) fun x₁ hx₁ => ?_
      exact exactly_reads (refreshGauges_reads.bind fun _ => trivial) hx₁

theorem exactly_execute (handlers : Registry P D WResp) (i : String) (principal : Principal)
    (hx : Faithful x.1.db) : Exactly wsem (execute handlers i principal) x := by
  refine exactly_fetch_bind hx fun row x₁ hx₁ hrow => exactly_handlerFor_bind hx₁ fun handler => ?_
  split
  · exact exactly_executeDryRun principal hx₁ hrow ‹_›
  · rename_i hmode
    have hlive : row.mode = .live := by
      cases hm : row.mode with
      | live => rfl
      | dry_run => exact absurd hm hmode
    refine exactly_liveGates_bind hx₁ hrow hlive fun enabled x₂ hx₂ hrow₂ hstatus => ?_
    refine exactly_reads_bind ((Prog.issues_call _).mpr trivial) hx₂ fun _ x₃ h₃ _ => ?_
    refine exactly_actuate_bind (h₃.faithful hx₂) ((h₃.get i).trans hrow₂) hlive hstatus
      fun after x₄ hx₄ hrow₄ => ?_
    refine exactly_update_audit_bind hx₄ hrow₄ rfl nofun ⟨hlive, hstatus⟩ rfl ?_ fun _ =>
      exactly_closing
    exact hstatus.moves nofun nofun

theorem exactly_submitAction (handlers : Registry P D WResp) (actionType : String)
    (target : Option String) (params : P) (mode : Mode) (reason : Option String)
    (requestedBy : String) (tenant : Option String) (hx : Faithful x.1.db) :
    Exactly wsem (submitAction handlers actionType target params mode reason requestedBy tenant)
      x := by
  refine exactly_handlerFor_bind hx fun handler => ?_
  refine exactly_reads_bind (world_reads _) hx fun out x₁ h₁ _ => ?_
  have hx₁ := h₁.faithful hx
  refine exactly_reads_bind (world_reads _) hx₁ fun risk x₂ h₂ _ => ?_
  have hx₂ := h₂.faithful hx₁
  refine exactly_reads_bind ((Prog.issues_call _).mpr trivial) hx₂ fun actionId x₃ h₃ _ => ?_
  have hx₃ := h₃.faithful hx₂
  refine exactly_reads_bind ((Prog.issues_call _).mpr trivial) hx₃ fun version x₄ h₄ _ => ?_
  have hx₄ := h₄.faithful hx₃
  refine exactly_write_audit_bind hx₄ rfl nofun (fun hthrough => ?_)
    (fun hthrough new hi hevent => ?_) fun x₅ hx₅ => ?_
  · exact not_faithful_insert hx₄ (new_of_through hthrough)
  · exact recorded_insert (new_of_through hthrough) rfl hi hevent
  · refine exactly_reads (refreshGauges_reads.bind fun _ => ?_) hx₅
    exact Prog.Issues.bind ((Prog.issues_call _).mpr trivial) fun _ => trivial

theorem exactly_createAction (handlers : Registry P D WResp) (actionType : String)
    (target : Option String) (params : P) (mode : Mode) (reason : Option String)
    (principal : Principal) (hx : Faithful x.1.db) :
    Exactly wsem (createAction handlers actionType target params mode reason principal) x := by
  refine (exactly_submitAction handlers actionType target params mode reason _ _ hx).then ?_
  rintro ⟨row, risk, preview⟩
  cases row with
  | none => exact Or.inr ⟨_, rfl⟩
  | some row => exact Or.inl ⟨_, rfl⟩

/-- **One request.** It leaves a faithful trail if and only if its statements
are completed. -/
theorem exactly_serve (handlers : Registry P D WResp) (r : Request P) (hx : Faithful x.1.db) :
    Exactly wsem (serve handlers r) x := by
  cases r with
  | create actionType target params mode reason principal =>
      exact (exactly_createAction handlers actionType target params mode reason principal hx).then
        fun _ => Or.inl ⟨_, rfl⟩
  | approve i reason principal =>
      exact (exactly_approve i reason principal hx).then fun _ => Or.inl ⟨_, rfl⟩
  | reject i reason principal =>
      exact (exactly_reject i reason principal hx).then fun _ => Or.inl ⟨_, rfl⟩
  | execute i principal =>
      exact (exactly_execute handlers i principal hx).then fun _ => Or.inl ⟨_, rfl⟩
  | rollback i principal =>
      exact (exactly_rollback handlers i principal hx).then fun _ => Or.inl ⟨_, rfl⟩

end Exactly

/-! ### The run -/

variable (wsem) in
/-- In every request of the run the statements are completed. -/
def CompletedRun (handlers : Registry P D WResp) : Plane P D W → List (GateStep P W WC) → Prop
  | _, [] => True
  | s, .call r choices :: steps =>
      (serve handlers r).Throughout (withChoices (planeSem wsem)) Completed (s, choices) ∧
        CompletedRun handlers (gateStep wsem handlers s (.call r choices)) steps
  | s, .surround a :: steps => CompletedRun handlers (surround a s) steps

theorem faithful_run_iff (handlers : Registry P D WResp) {s : Plane P D W} (hs : Faithful s.db)
    (steps : List (GateStep P W WC)) :
    (∀ n, Faithful (gateRun wsem handlers s (steps.take n)).db) ↔
      CompletedRun wsem handlers s steps := by
  induction steps generalizing s with
  | nil => exact iff_of_true (fun n => by simpa [gateRun] using hs) trivial
  | cons step steps ih =>
      have hsplit : (∀ n, Faithful (gateRun wsem handlers s ((step :: steps).take n)).db) ↔
          Faithful (gateStep wsem handlers s step).db ∧
            ∀ n, Faithful (gateRun wsem handlers (gateStep wsem handlers s step)
              (steps.take n)).db := by
        -- a prefix is empty, or the first step and a prefix of the rest
        refine ⟨fun h => ⟨h 1, fun n => h (n + 1)⟩, fun h n => ?_⟩
        cases n with
        | zero => exact hs
        | succ n => exact h.2 n
      rw [hsplit]
      cases step with
      | call r choices =>
          have hserved : Exactly wsem (serve handlers r) (s, choices) := exactly_serve handlers r hs
          constructor
          · rintro ⟨hfirst, hrest⟩
            exact ⟨hserved.mp hfirst, (ih hfirst).mp hrest⟩
          · rintro ⟨hfirst, hrest⟩
            have hfaithful := hserved.mpr hfirst
            exact ⟨hfaithful, (ih hfaithful).mpr hrest⟩
      -- the surroundings change no table
      | surround a =>
          have hfaithful : Faithful (surround a s).db := by
            cases a with
            | setEnabled b => exact SameTables.faithful (a := s.db) ⟨rfl, rfl⟩ hs
            | world w => exact hs
          exact (and_iff_right hfaithful).trans (ih hfaithful)

/-- **The audit trail.** In a run of requests and changes around them, from
empty tables, the events of every action fold to its status by legal
transitions in every state that is reached, if and only if the database does
not fail between a row and its audit row. -/
theorem trail_tells_status (handlers : Registry P D WResp) (s : Plane P D W)
    (hactions : s.db.actions = []) (haudit : s.db.audit = []) (steps : List (GateStep P W WC)) :
    (∀ n, Faithful (gateRun wsem handlers s (steps.take n)).db) ↔
      CompletedRun wsem handlers s steps := by
  refine faithful_run_iff handlers (fun i => ?_) steps
  have hget : s.db.get i = none := by rw [ControlDb.get, hactions, List.find?_nil]
  have htrail : s.db.trail i = [] := by rw [ControlDb.trail, haudit, List.filter_nil, List.map_nil]
  refine ⟨?_, fun row hrow => ?_, fun _ => htrail⟩
  · rw [hget, htrail]
    rfl
  · rw [hget] at hrow
    cases hrow

/-- A request of which the statement with this number fails. -/
def failingCall (r : Request Unit) (number : ℕ) : GateStep Unit Unit Unit :=
  .call r fun n => if n = number then ({ fails := some "connection lost" }, ()) else calmChoice

/-- A live action is requested, a first attempt to approve it fails before
anything is written, and it is approved, executed and rolled back. -/
theorem live_action_trail :
    let steps := [calmCall (.create "noop" none () .live none ⟨"operator", none⟩),
      failingCall (.approve "a1" none ⟨"engineer", none⟩) 1,
      calmCall (.approve "a1" none ⟨"engineer", none⟩),
      calmCall (.execute "a1" ⟨"operator", none⟩), calmCall (.rollback "a1" ⟨"engineer", none⟩)]
    let s : Plane Unit (NoopDoc Unit) Unit := ⟨{ enabled := true }, ()⟩
    (gateRun noSem (noopRegistry .low) s steps).db.trail "a1" =
        [.REQUESTED, .APPROVED, .EXECUTED, .ROLLED_BACK] ∧
      ∀ n, Faithful (gateRun noSem (noopRegistry .low) s (steps.take n)).db := by
  refine ⟨by decide +kernel, ?_⟩
  refine (trail_tells_status (noopRegistry .low) ⟨{ enabled := true }, ()⟩ rfl rfl _).mpr ?_
  refine ⟨?_, ?_, ?_, ?_, ?_, trivial⟩ <;> decide +kernel

/-- An approval of which the audit row is not written: the action is APPROVED,
and its trail says that it is PENDING. -/
theorem approval_not_recorded :
    let db := (gateRun noSem (noopRegistry .low)
      (⟨{ enabled := true }, ()⟩ : Plane Unit (NoopDoc Unit) Unit)
      [calmCall (.create "noop" none () .live none ⟨"operator", none⟩),
        failingCall (.approve "a1" none ⟨"engineer", none⟩) 3]).db
    (db.get "a1").map ActionRow.status = some .APPROVED ∧ folded (db.trail "a1") = some .PENDING ∧
      ¬ Faithful db := by
  intro db
  have hstatus : (db.get "a1").map ActionRow.status = some .APPROVED := by decide +kernel
  have htrail : folded (db.trail "a1") = some .PENDING := by decide +kernel
  refine ⟨hstatus, htrail, not_faithful _ _ htrail ?_⟩
  rw [hstatus]
  exact nofun

end DiepLab.Controls
