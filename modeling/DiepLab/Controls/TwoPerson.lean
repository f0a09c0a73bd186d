import DiepLab.Controls.Obligations

/-!
Separation of duties under any interleaving.

Only the update of `approve` writes APPROVED, and it is issued only after the
caller's name has been compared with the requester's; the columns it is
compared on never change. So an approved high-risk row always has an approval
by somebody else in the log (`TwoPerson.approved`), and a request that has
read such a row may call the handler at any later time, whatever else happens
to the row in between.
-/

namespace DiepLab.Controls

open StatementProgram

variable {P D W WC WStmt : Type} {WResp : WStmt → Type}
variable {wsem : WC → (q : WStmt) → W → Except Exc (WResp q) × W}

/-- Somebody other than `requestedBy` has approved the action. -/
def ApprovedByOther (log : List (Trace P D)) (actionId requestedBy : String) : Prop :=
  ∃ by_, .updated actionId (.approved by_) ∈ log ∧ by_ ≠ requestedBy

theorem ApprovedByOther.mono {log log' : List (Trace P D)} {actionId requestedBy : String}
    (hpre : log <+: log') (h : ApprovedByOther log actionId requestedBy) :
    ApprovedByOther log' actionId requestedBy := by
  obtain ⟨by_, hmem, hne⟩ := h
  exact ⟨by_, hpre.subset hmem, hne⟩

/-- What has to be true of the stored action when its handler is executed:
if its risk is high, the flag was on at the check, the action is live, and
somebody other than its requester has approved it before. -/
def Governed (db : ControlDb P D) (earlier : List (Trace P D)) (row : ActionRow P D)
    (checked : Option Bool) : Prop :=
  ∃ stored, db.get row.actionId = some stored ∧
    (stored.risk = .high → checked = some true ∧ stored.mode = .live ∧
      ApprovedByOther earlier row.actionId stored.requestedBy)

/-- The invariant. -/
structure TwoPerson (db : ControlDb P D) : Prop where
  approved : ∀ i row, db.get i = some row → row.status = .APPROVED → row.risk = .high →
    ApprovedByOther db.log i row.requestedBy
  executed : ∀ pre row checked enabled post,
    db.log = pre ++ .invoked .execute row checked enabled :: post → Governed db pre row checked

/-- What the statements need. -/
def TwoPersonNeeds : ControlStmt P D → ControlDb P D → Prop
  | .insertAction row, _ => row.status = .PENDING
  | .updateStatus i (.approved by_) _, db =>
      ∀ row, db.get i = some row → row.risk = .high → by_ ≠ row.requestedBy
  | .invoke .execute row checked, db => Governed db db.log row checked
  | _, _ => True

/-! ### One statement -/

/-- What is governed stays governed when rows keep what was requested. -/
theorem Governed.mono {db db' : ControlDb P D} {earlier : List (Trace P D)}
    {row : ActionRow P D} {checked : Option Bool}
    (hrows : ∀ i row, db.get i = some row →
      ∃ row', db'.get i = some row' ∧ SameRequest row row')
    (h : Governed db earlier row checked) : Governed db' earlier row checked := by
  obtain ⟨stored, hstored, himp⟩ := h
  obtain ⟨stored', hstored', hsame⟩ := hrows _ _ hstored
  refine ⟨stored', hstored', fun hrisk => ?_⟩
  obtain ⟨hchecked, hlive, hother⟩ := himp (hsame.risk.trans hrisk)
  exact ⟨hchecked, hsame.mode ▸ hlive, hsame.requestedBy ▸ hother⟩

/-- A statement that logs nothing new about handlers keeps the calls of the
past governed. -/
theorem TwoPerson.executed_step {db db' : ControlDb P D} (h : TwoPerson db)
    (hrows : ∀ i row, db.get i = some row →
      ∃ row', db'.get i = some row' ∧ SameRequest row row')
    (rest : List (Trace P D)) (hlog : db'.log = db.log ++ rest)
    (hrest : ∀ e ∈ rest, rest = [e] ∧ ∀ row checked enabled,
      e = .invoked .execute row checked enabled → Governed db db.log row checked) :
    ∀ pre row checked enabled post,
      db'.log = pre ++ .invoked .execute row checked enabled :: post →
        Governed db' pre row checked := by
  intro pre row checked enabled post hsplit
  refine Governed.mono hrows ?_
  cases rest with
  | nil =>
      rw [hlog, List.append_nil] at hsplit
      exact h.executed _ _ _ _ _ hsplit
  | cons e rest =>
      obtain ⟨hone, hneeds⟩ := hrest e List.mem_cons_self
      rw [hlog, hone] at hsplit
      rcases split_append_singleton hsplit with ⟨post', hold, -⟩ | ⟨hpre, he, -⟩
      · exact h.executed _ _ _ _ _ hold
      · exact hpre ▸ hneeds row checked enabled he

section Step

variable {db : ControlDb P D} (h : TwoPerson db)
include h

/-- One entry is appended to the log. -/
theorem TwoPerson.append {db' : ControlDb P D} {e : Trace P D} (hlog : db'.log = db.log ++ [e])
    (hrows : ∀ i row, db.get i = some row →
      ∃ row', db'.get i = some row' ∧ SameRequest row row')
    (hinvoked : ∀ row checked enabled, e = .invoked .execute row checked enabled →
      Governed db db.log row checked) :
    ∀ pre row checked enabled post,
      db'.log = pre ++ .invoked .execute row checked enabled :: post →
        Governed db' pre row checked := by
  refine h.executed_step hrows [e] hlog fun e' he' => ?_
  rw [List.mem_singleton.mp he']
  exact ⟨rfl, hinvoked⟩

theorem TwoPerson.insert {new : ActionRow P D} (hstatus : new.status = .PENDING) :
    TwoPerson { db with actions := db.actions ++ [new] } where
  approved i row hrow happroved hrisk := by
    rcases ControlDb.get_insert_cases hrow with hrow | ⟨-, rfl⟩
    · exact h.approved i row hrow happroved hrisk
    · rw [hstatus] at happroved
      exact absurd happroved (by decide)
  executed := h.executed_step (fun _ row hrow => ⟨row, ControlDb.get_insert hrow, .refl row⟩) []
    (List.append_nil _).symm fun e he => absurd he List.not_mem_nil

theorem TwoPerson.update {i : String} {u : StatusUpdate D} {read : ActionRow P D}
    (hneeds : TwoPersonNeeds (.updateStatus i u read) db)
    (hrows : ∀ j row, db.get j = some row →
      ∃ row', (db.update i u).get j = some row' ∧ SameRequest row row') :
    TwoPerson (db.update i u) where
  approved j row hrow hstatus hrisk := by
    rw [ControlDb.get_update] at hrow
    by_cases hij : i = j
    · subst hij
      rw [if_pos rfl] at hrow
      obtain ⟨old, hold, rfl⟩ := Option.map_eq_some_iff.mp hrow
      rw [StatusUpdate.apply_status] at hstatus
      cases u with
      | approved by_ =>
          exact ⟨by_, List.mem_append_right _ List.mem_cons_self, hneeds old hold hrisk⟩
      | _ => exact absurd hstatus (by simp [StatusUpdate.status])
    · rw [if_neg hij] at hrow
      exact (h.approved j row hrow hstatus hrisk).mono (List.prefix_append _ _)
  executed := h.append rfl hrows fun _ _ _ hinv => nomatch hinv

theorem TwoPerson.invoke {op : Op} {row : ActionRow P D} {checked : Option Bool}
    (hneeds : TwoPersonNeeds (.invoke op row checked) db) :
    TwoPerson { db with log := db.log ++ [.invoked op row checked db.enabled] } where
  approved i row' hrow hstatus hrisk :=
    (h.approved i row' hrow hstatus hrisk).mono (List.prefix_append _ _)
  executed := by
    refine h.append rfl (fun _ stored hstored => ⟨stored, hstored, .refl stored⟩)
      fun row' checked' enabled hinv => ?_
    injection hinv with hop hrow hchecked henabled
    subst hop hrow hchecked
    exact hneeds

end Step

theorem twoPerson_inductive :
    Inductive (P := P) (D := D) TwoPerson (fun _ _ => True) TwoPersonNeeds where
  setEnabled db b h := ⟨h.approved, h.executed⟩
  quiet q db _ hq := by
    cases q with
    | insertAction row => exact hq.elim
    | updateStatus i u read => exact hq.elim
    | invoke op row checked => exact hq.elim
    | respond endpoint i => exact hq.elim
    | _ => trivial
  step c q db h _ hneeds := by
    have hrows : ∀ i row, db.get i = some row →
        ∃ row', (controlSem c q db).2.get i = some row' ∧ SameRequest row row' :=
      fun _ _ hrow => controlSem_get c q hrow
    rcases controlSem_cases c q db with hsem | ⟨-, hsem⟩
    · rw [hsem]
      exact h
    · rw [hsem] at hrows ⊢
      cases q with
      | insertAction new => exact h.insert hneeds
      | updateStatus i u read => exact h.update hneeds hrows
      | invoke op row checked => exact h.invoke hneeds
      | respond endpoint i =>
          refine ⟨fun j row hrow hstatus hrisk => ?_, ?_⟩
          · exact (h.approved j row hrow hstatus hrisk).mono (List.prefix_append _ _)
          · exact h.append rfl hrows fun _ _ _ hinv => nomatch hinv
      | _ => exact ⟨h.approved, h.executed⟩

/-! ### The requests -/

theorem twoPerson_serve (handlers : Registry P D WResp) (r : Request P) (s : Plane P D W)
    (hs : TwoPerson s.db) :
    wp (planeSem wsem) (invariantRules TwoPerson (fun _ _ => True) TwoPersonNeeds)
      (serve handlers r) (fun _ _ => True) s := by
  have hcalm : Calm wsem handlers (invariantRules TwoPerson (fun _ _ => True) TwoPersonNeeds) :=
    twoPerson_inductive.calm handlers
  have safe {q : ControlStmt P D} {s' : Plane P D W} (hs' : TwoPerson s'.db)
      (hN : TwoPersonNeeds q s'.db) :
      Safe wsem (invariantRules TwoPerson (fun _ _ => True) TwoPersonNeeds) q s' :=
    twoPerson_inductive.safe hs' fun _ => hN
  cases r with
  | create actionType target params mode reason principal =>
      refine (hcalm.runs_createAction (.refl hs) fun row s' hs' hstatus _ _ => ?_).discard
      exact safe hs'.after hstatus
  | approve i reason principal =>
      refine (hcalm.runs_approve (fun row s₁ s₂ _ hrow _ hduties h₂ => ?_)
        fun s₁ s₂ h₂ => ?_).discard
      · -- the caller was compared with a requester that the row still has
        refine safe h₂.after fun stored hstored hrisk heq => hduties ?_
        obtain ⟨row', hrow', hsame⟩ := h₂.rows _ _ hrow
        rw [hrow'] at hstored
        injection hstored with hstored
        subst hstored
        exact ⟨hsame.risk.trans hrisk, heq.trans hsame.requestedBy.symm⟩
      · exact safe h₂.after trivial
  | reject i reason principal =>
      refine (hcalm.runs_reject (fun row s₁ s₂ _ _ _ h₂ => ?_) fun s₁ s₂ h₂ => ?_).discard
      · exact safe h₂.after trivial
      · exact safe h₂.after trivial
  | execute i principal =>
      refine (hcalm.runs_execute ?_ ?_ ?_ ?_).discard
      · exact fun _ _ s₂ _ _ _ _ h₂ => safe h₂.after trivial
      · -- the row was approved by somebody else when it was read
        intro row s₁ s₂ s₃ h₁ hrow hlive h₂ _ hrisk _ h₃
        have h₁₃ := h₂.trans h₃
        obtain ⟨row', hrow', hsame⟩ := h₁₃.rows _ _ hrow
        have hid : row.actionId = i := ControlDb.get_actionId hrow
        refine safe h₃.after ⟨row', by rw [hid, hrow'], fun hhigh => ?_⟩
        have hrow_high : row.risk = .high := hsame.risk.trans hhigh
        have hother := h₁.after.approved i row hrow (hrisk hrow_high) hrow_high
        refine ⟨rfl, hsame.mode ▸ hlive, ?_⟩
        rw [hid, ← hsame.requestedBy]
        exact hother.mono h₁₃.log
      · intro row s₁ s₂ u _ _ _ h₂ hu
        obtain ⟨after, rfl⟩ | ⟨error, rfl⟩ := hu
        · exact safe h₂.after trivial
        · exact safe h₂.after trivial
      · exact fun s' hs' => safe hs'.after trivial
  | rollback i principal =>
      refine (hcalm.runs_rollback ?_ ?_ ?_).discard
      · exact fun _ _ s₂ _ _ _ h₂ => safe h₂.after trivial
      · exact fun _ _ _ s₂ _ _ _ h₂ => safe h₂.after trivial
      · exact fun s' hs' => safe hs'.after trivial

/-- **Two persons.** Start with empty control tables, and let any requests of
any principals be served in any interleaving of their statements, with
failures, with the flag switched and the world changed at any time. Whenever
the handler of an action of high risk has been executed, the flag was on at
the check, the action is live, and somebody other than its requester had
approved it before. -/
theorem executed_high_risk_governed (handlers : Registry P D WResp) (enabled : Bool) (world : W)
    (schedule : List (Event (ControlChoice × WC) (Request P) (Surroundings W))) :
    let final := (Config.run (planeSem wsem) (serve handlers) surround
      ⟨⟨{ enabled := enabled }, world⟩, []⟩ schedule).state.db
    ∀ earlier row checked flag later,
      final.log = earlier ++ .invoked .execute row checked flag :: later →
      ∃ stored, final.get row.actionId = some stored ∧
        (stored.risk = .high → checked = some true ∧ stored.mode = .live ∧
          ∃ by_, .updated row.actionId (.approved by_) ∈ earlier ∧
            by_ ≠ stored.requestedBy) := by
  have hstart : TwoPerson ({ enabled := enabled } : ControlDb P D) := by
    refine ⟨fun i row hrow => absurd hrow (by simp [ControlDb.get]), ?_⟩
    intro pre row checked flag post hlog
    exact absurd hlog (by simp)
  exact (twoPerson_inductive.invariant (twoPerson_serve handlers) _ hstart schedule
    (Config.allSteps_of_forall _ _ _ (fun _ _ _ _ _ => trivial) _ schedule)).executed

/-- A high-risk action that is requested, approved by somebody else, and
executed. -/
theorem approved_noop_governed :
    let schedule := .spawn (.create "noop" none () .live none ⟨"operator", none⟩) :: turns 0 8 ++
      .spawn (.approve "a1" none ⟨"engineer", none⟩) :: turns 1 8 ++
      .spawn (.execute "a1" ⟨"operator", none⟩) :: turns 2 9
    let final := (Config.run (planeSem noSem) (serve (noopRegistry .high)) surround
      ⟨⟨{ enabled := true }, ()⟩, []⟩ schedule).state.db
    ∃ earlier row checked flag later,
      final.log = earlier ++ .invoked .execute row checked flag :: later ∧
      row.risk = .high ∧
      ∃ stored, final.get row.actionId = some stored ∧
        (stored.risk = .high → checked = some true ∧ stored.mode = .live ∧
          ∃ by_, .updated row.actionId (.approved by_) ∈ earlier ∧
            by_ ≠ stored.requestedBy) := by
  refine ⟨[.updated "a1" (.approved "engineer"), .responded .approve "a1"],
    _, _, _, _, rfl, rfl, ?_⟩
  exact executed_high_risk_governed (noopRegistry .high) true () _ _ _ _ _ _ rfl

end DiepLab.Controls
