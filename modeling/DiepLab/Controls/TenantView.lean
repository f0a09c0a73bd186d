import DiepLab.Controls.Reads

/-!
What a caller with a tenant learns from the read endpoints.

`ControlTables.only` is the part of the tables that belongs to a tenant: its
actions and their audit trail. Two databases with the same part differ in
nothing that such a caller should see. Every query that is restricted to the
tenant has the same rows in a database and in this part, and so have the answers
built from them. The trail of a single action is not restricted.
-/

namespace DiepLab.Controls

variable {P D : Type}

/-! ### The part of a tenant -/

namespace ControlTables

variable (db : ControlTables P D) (tenant : String)

def ownActions : List (StoredAction P D) :=
  db.actions.filter fun a => a.tenantId = some tenant

def ownIds : List String :=
  (db.ownActions tenant).map fun a => a.actionId

def only : ControlTables P D where
  actions := db.ownActions tenant
  audit := db.audit.filter fun e => e.actionId ∈ db.ownIds tenant
  action_key := db.action_key.sublist (List.filter_sublist.map _)
  audit_action := fun _ he => of_decide_eq_true (List.mem_filter.mp he).2

end ControlTables

/-! ### Queries over a part -/

section Queries

variable (db : ControlTables P D) (name tenant : String)

@[simp] theorem inScopeRows_own :
    db.inScopeRows ⟨name, some tenant⟩ = db.ownActions tenant := rfl

@[simp] theorem ownActions_only : (db.only tenant).ownActions tenant = db.ownActions tenant := by
  simp [ControlTables.only, ControlTables.ownActions]

@[simp] theorem ownIds_only : (db.only tenant).ownIds tenant = db.ownIds tenant := by
  simp [ControlTables.ownIds]

/-- A join with the actions of the tenant finds partners for own audit rows
only. -/
theorem joined_only :
    (db.only tenant).joined ⟨name, some tenant⟩ = db.joined ⟨name, some tenant⟩ := by
  simp only [ControlTables.joined, inScopeRows_own, ownActions_only]
  simp only [ControlTables.only]
  generalize db.audit = rows
  induction rows with
  | nil => rfl
  | cons e rows ih =>
      by_cases he : e.actionId ∈ db.ownIds tenant
      · rw [List.filter_cons_of_pos (by simpa using he), List.flatMap_cons, List.flatMap_cons, ih]
      · have hnone : (db.ownActions tenant).filter (fun a => a.actionId = e.actionId) = [] := by
          rw [List.filter_eq_nil_iff]
          intro a ha heq
          exact he (List.mem_map.mpr ⟨a, ha, of_decide_eq_true heq⟩)
        rw [List.filter_cons_of_neg (by simpa using he), List.flatMap_cons, hnone, ih]
        rfl

theorem trail_only {i : String} (hi : i ∈ db.ownIds tenant) :
    (db.only tenant).trail i = db.trail i := by
  simp only [ControlTables.trail, ControlTables.only, List.filter_filter]
  congr 1
  apply List.filter_congr
  intro e _
  by_cases he : e.actionId = i
  · simp [he, hi]
  · simp [he]

theorem length_trail (i : String) :
    (db.trail i).length = (db.audit.filter fun e => e.actionId = i).length :=
  List.length_insertionSort _ _

/-- The row of an own action is found under its key, whatever else there is. -/
theorem find_own {row : StoredAction P D} {tables : ControlTables P D}
    (hrow : row ∈ tables.actions) :
    tables.actions.find? (fun a => a.actionId = row.actionId) = some row := by
  cases hfind : tables.actions.find? fun a => a.actionId = row.actionId with
  | none =>
      rw [List.find?_eq_none] at hfind
      exact absurd (decide_eq_true rfl) (hfind row hrow)
  | some other =>
      have hid : other.actionId = row.actionId := of_decide_eq_true (List.find?_some hfind :)
      rw [List.inj_on_of_nodup_map tables.action_key (List.mem_of_find?_eq_some hfind) hrow hid]

end Queries

/-! ### Answers to a caller with a tenant -/

/-- Both answers to a request for an action that the caller may not see. -/
def Denied : Except Exc (ReadAnswer P D) → Prop
  | .error e => e = actionNotFound ∨ e = foreignAction
  | .ok _ => False

/-- The same answer, or both deny a single action. -/
def SameAnswer (R : ReadRequest) (a b : Except Exc (ReadAnswer P D)) : Prop :=
  a = b ∨ (∃ actionId, R = .getAction actionId) ∧ Denied a ∧ Denied b

/-- The request asks for the audit trail of one action that is none of the
given ones. -/
def AsksForeignTrail (env : ReadEnv) (ids : List String) (R : ReadRequest) : Prop :=
  ∃ actionId limit i, R = .audit (some actionId) limit ∧ actionId ≠ "" ∧
    env.uuid actionId = some i ∧ i ∉ ids

namespace SameAnswer

variable {R : ReadRequest} {a b c : Except Exc (ReadAnswer P D)}

theorem symm : SameAnswer R a b → SameAnswer R b a
  | .inl h => .inl h.symm
  | .inr ⟨hR, ha, hb⟩ => .inr ⟨hR, hb, ha⟩

theorem trans (hab : SameAnswer R a b) (hbc : SameAnswer R b c) : SameAnswer R a c := by
  rcases hab with rfl | ⟨hR, ha, hb⟩
  · exact hbc
  · rcases hbc with rfl | ⟨_, _, hc⟩
    · exact Or.inr ⟨hR, ha, hb⟩
    · exact Or.inr ⟨hR, ha, hc⟩

end SameAnswer

section Answers

variable (env : ReadEnv) (db : ControlTables P D) (name tenant : String)

/-- Any action but the own ones is denied, whether it exists or not. -/
theorem getAction_foreign {actionId i : String} (huuid : env.uuid actionId = some i)
    (hi : i ∉ db.ownIds tenant) :
    Denied (getAction env db ⟨name, some tenant⟩ actionId) := by
  simp only [getAction, huuid]
  cases hfind : db.actions.find? fun a => a.actionId = i with
  | none => exact Or.inl rfl
  | some row =>
      have hforeign : ¬ tenantOk ⟨name, some tenant⟩ row.toActionRow := by
        rintro (hnone | hnone | hsame)
        · exact nomatch hnone
        · exact row.tenant_set hnone
        · refine hi (List.mem_map.mpr ⟨row, List.mem_filter.mpr ⟨?_, decide_eq_true hsame⟩, ?_⟩)
          · exact List.mem_of_find?_eq_some hfind
          · exact of_decide_eq_true (List.find?_some hfind :)
      simp only [if_neg hforeign]
      exact Or.inr rfl

/-- An own action is shown from the part of the tenant as it is. -/
theorem getAction_own {actionId i : String} (huuid : env.uuid actionId = some i)
    (hi : i ∈ db.ownIds tenant) :
    getAction env (db.only tenant) ⟨name, some tenant⟩ actionId =
      getAction env db ⟨name, some tenant⟩ actionId := by
  obtain ⟨row, hown, rfl⟩ := List.mem_map.mp hi
  have hfound := find_own (List.mem_of_mem_filter hown)
  have hfoundOnly :
      (db.only tenant).actions.find? (fun a => a.actionId = row.actionId) = some row :=
    find_own hown
  simp only [getAction, huuid, hfound, hfoundOnly, trail_only db tenant hi]

theorem getAction_only (actionId : String) :
    SameAnswer (.getAction actionId) (getAction env db ⟨name, some tenant⟩ actionId)
      (getAction env (db.only tenant) ⟨name, some tenant⟩ actionId) := by
  cases huuid : env.uuid actionId with
  | none =>
      left
      simp only [getAction, huuid]
  | some i =>
      by_cases hi : i ∈ db.ownIds tenant
      · exact Or.inl (getAction_own env db name tenant huuid hi).symm
      · refine Or.inr ⟨⟨actionId, rfl⟩, ?_, ?_⟩
        · exact getAction_foreign env db name tenant huuid hi
        · exact getAction_foreign env _ name tenant huuid (by rwa [ownIds_only])

theorem auditTrail_only {actionId : Option String} {limit : ℤ}
    (hown : ¬ AsksForeignTrail env (db.ownIds tenant) (.audit actionId limit)) :
    auditTrail env (db.only tenant) ⟨name, some tenant⟩ actionId limit =
      auditTrail env db ⟨name, some tenant⟩ actionId limit := by
  rw [auditTrail, auditTrail]
  cases hgiven : given actionId with
  | none => simp only [joined_only]
  | some text =>
      obtain ⟨rfl, hne⟩ := given_eq_some hgiven
      cases huuid : env.uuid text with
      | none => simp only [huuid]
      | some i =>
          have hi : i ∈ db.ownIds tenant := by
            by_contra hi
            exact hown ⟨text, limit, i, rfl, hne, huuid, hi⟩
          simp only [huuid, trail_only db tenant hi]

/-- Unless the trail of a foreign action is asked for, the answer comes from
the part of the tenant alone. -/
theorem answer_only {R : ReadRequest} (hown : ¬ AsksForeignTrail env (db.ownIds tenant) R) :
    SameAnswer R (answer env db ⟨name, some tenant⟩ R)
      (answer env (db.only tenant) ⟨name, some tenant⟩ R) := by
  cases R with
  | listActions status limit =>
      left
      simp only [answer, listActions, inScopeRows_own, ownActions_only]
  | getAction actionId => exact getAction_only env db name tenant actionId
  | audit actionId limit => exact Or.inl (auditTrail_only env db name tenant hown).symm
  | readiness =>
      left
      rw [answer, answer, readiness, readiness, inScopeRows_own, inScopeRows_own, ownActions_only,
        joined_only]
  | history actionType status risk sinceHours limit =>
      left
      simp only [answer, history, inScopeRows_own, ownActions_only]
  | exportAudit format sinceHours =>
      left
      simp only [answer, exportAudit, joined_only]

end Answers

/-! ### What the trail of a foreign action gives away -/

section Foreign

variable [Inhabited P] (db : ControlTables P D) (tenant i : String)

def strangerAction : StoredAction P D where
  actionId := i
  actionType := "noop"
  target := none
  params := default
  mode := .dry_run
  risk := .low
  reason := none
  requestedBy := ""
  beforeState := none
  tenantId := some (tenant ++ "x")
  networkModelVersion := none
  createdAt := 0
  tenant_set := nofun

theorem strangerAction_tenantId :
    (strangerAction tenant i : StoredAction P D).tenantId ≠ some tenant := by
  intro h
  injection h with h
  have hlength := congrArg String.length h
  simp at hlength

/-- One more entry in the trail of an action, which is added if it is not
there. -/
def ControlTables.withEntry : ControlTables P D where
  actions :=
    if i ∈ db.actions.map fun a => a.actionId then db.actions
    else strangerAction tenant i :: db.actions
  audit :=
    { actionId := i, event := .REQUESTED, actor := "", detail := .empty,
      networkModelVersion := none, auditId := 0, at_ := 0 } :: db.audit
  action_key := by
    split
    · exact db.action_key
    · exact List.nodup_cons.mpr ⟨‹_›, db.action_key⟩
  audit_action := by
    intro e he
    rw [List.mem_cons] at he
    split
    · obtain rfl | he := he
      · assumption
      · exact db.audit_action e he
    · rw [List.map_cons, List.mem_cons]
      obtain rfl | he := he
      · exact Or.inl rfl
      · exact Or.inr (db.audit_action e he)

theorem ownActions_withEntry :
    (db.withEntry tenant i).ownActions tenant = db.ownActions tenant := by
  simp only [ControlTables.ownActions, ControlTables.withEntry]
  split
  · rfl
  · exact List.filter_cons_of_neg (by simpa using strangerAction_tenantId tenant i)

theorem only_withEntry (hi : i ∉ db.ownIds tenant) :
    (db.withEntry tenant i).only tenant = db.only tenant := by
  have hids : (db.withEntry tenant i).ownIds tenant = db.ownIds tenant := by
    rw [ControlTables.ownIds, ControlTables.ownIds, ownActions_withEntry]
  have haudit : (db.withEntry tenant i).audit.filter (fun e => e.actionId ∈ db.ownIds tenant) =
      db.audit.filter fun e => e.actionId ∈ db.ownIds tenant :=
    List.filter_cons_of_neg (by simpa using hi)
  simp only [ControlTables.only, ownActions_withEntry, hids, haudit]

theorem trail_withEntry : (db.withEntry tenant i).trail i ≠ db.trail i := by
  intro h
  have hlength := congrArg List.length h
  rw [length_trail, length_trail, ControlTables.withEntry,
    List.filter_cons_of_pos (by simp)] at hlength
  simp at hlength

end Foreign

/-- A switching request of the tenant `north`, and its only trail entry. -/
def northTables : ControlTables Unit Unit where
  actions := [{
    actionId := "6d0f6a52-6c1b-4f0e-9b0e-0d1f6a3c2b11"
    actionType := "switch_op"
    target := some "SW-N1"
    params := ()
    mode := .live
    risk := .high
    reason := some "planned work"
    requestedBy := "nora"
    beforeState := none
    tenantId := some "north"
    networkModelVersion := none
    createdAt := 0
    tenant_set := nofun }]
  audit := [{
    actionId := "6d0f6a52-6c1b-4f0e-9b0e-0d1f6a3c2b11"
    event := .REQUESTED
    actor := "nora"
    detail := .requested "switch_op" (some "SW-N1") .live .high ()
    networkModelVersion := none
    auditId := 1
    at_ := 0 }]
  action_key := by decide
  audit_action := by decide

def emptyTables : ControlTables Unit Unit where
  actions := []
  audit := []
  action_key := by decide
  audit_action := by decide

def safeEnv : ReadEnv where
  now := 60
  enabled := false
  registered := ["flisr", "noop", "switch_op", "voltvar_dispatch"]
  uuid := some

def northTrailRequest : ReadRequest :=
  .audit (some "6d0f6a52-6c1b-4f0e-9b0e-0d1f6a3c2b11") 100

/-- A caller with a tenant cannot tell two databases with the same part of the
tenant apart, but for 404 against 403 on a single action, exactly if the request
does not ask for the trail of an action that is not one of the tenant. -/
theorem reads_isolated_iff [Inhabited P] (env : ReadEnv) (db : ControlTables P D)
    (name tenant : String) (R : ReadRequest) :
    (∀ db' : ControlTables P D, db'.only tenant = db.only tenant →
      SameAnswer R (answer env db ⟨name, some tenant⟩ R)
        (answer env db' ⟨name, some tenant⟩ R)) ↔
      ¬ AsksForeignTrail env (db.ownIds tenant) R := by
  constructor
  · rintro hsame ⟨actionId, limit, i, rfl, hne, huuid, hi⟩
    have hanswer := hsame (db.withEntry tenant i) (only_withEntry db tenant i hi)
    have hgiven : given (some actionId) = some actionId := if_neg hne
    rcases hanswer with heq | ⟨⟨_, hR⟩, _⟩
    · simp only [answer, auditTrail, hgiven, huuid] at heq
      injection heq with heq
      injection heq with heq
      exact trail_withEntry db tenant i heq.symm
    · exact nomatch hR
  · intro hown db' honly
    have hids : db'.ownIds tenant = db.ownIds tenant := by
      rw [← ownIds_only db', honly, ownIds_only]
    have hdb := answer_only env db name tenant hown
    have hdb' := answer_only env db' name tenant (hids ▸ hown)
    rw [honly] at hdb'
    exact hdb.trans hdb'.symm

/-- A caller of the tenant `south` is told what was requested in `north`. -/
theorem north_trail_leaks :
    northTables.only "south" = emptyTables.only "south" ∧
      ¬ SameAnswer northTrailRequest
        (answer safeEnv emptyTables ⟨"sam", some "south"⟩ northTrailRequest)
        (answer safeEnv northTables ⟨"sam", some "south"⟩ northTrailRequest) := by
  refine ⟨rfl, ?_⟩
  rintro (heq | ⟨⟨_, hR⟩, _⟩)
  · injection heq with heq
    injection heq with heq
    exact nomatch heq
  · exact nomatch hR

end DiepLab.Controls
