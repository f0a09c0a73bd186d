import DiepLab.Auth.Statements
import DiepLab.Auth.TokenVersions

/-!
The last admin.

`delete_user` counts the admins in one statement and deletes in another. What it
has seen is the table of a moment ago; `GuardHolds` says that the guard would
still let the deletion through when it happens. It is exactly what keeps an
admin in the table.
-/

namespace DiepLab.Auth

open StatementProgram

/-! ### Admins in the table -/

namespace UserTable

variable {users users' : UserTable} {username : String} {row : UserRow}

theorem row_unique (hrow : row ∈ users.rows) {row' : UserRow} (hrow' : row' ∈ users.rows)
    (hname : row.username = row'.username) : row = row' :=
  List.inj_on_of_nodup_map users.key hrow hrow' hname

theorem row?_eq_some_iff :
    users.row? username = some row ↔ row ∈ users.rows ∧ row.username = username := by
  constructor
  · exact row?_mem
  · rintro ⟨hrow, hname⟩
    cases hfound : users.row? username with
    | none =>
        have hnone := List.find?_eq_none.mp hfound row hrow
        exact absurd hname (by simpa using hnone)
    | some row' =>
        obtain ⟨hrow', hname'⟩ := row?_mem hfound
        rw [row_unique hrow hrow' (hname.trans hname'.symm)]

/-- A name finds its row, if there is one, and no other. -/
theorem filter_username (users : UserTable) (username : String) :
    users.rows.filter (fun row => row.username = username) = (users.row? username).toList := by
  have hkey : ((users.rows.filter fun row => row.username = username).map UserRow.username).Nodup :=
    users.key.sublist (List.filter_sublist.map _)
  rw [row?, ← List.head?_filter]
  cases hrows : users.rows.filter fun row => row.username = username with
  | nil => rfl
  | cons row rest =>
      cases rest with
      | nil => rfl
      | cons row' rest =>
          have hmem (r : UserRow) (hr : r ∈ row :: row' :: rest) : r.username = username := by
            rw [← hrows] at hr
            simpa using (List.mem_filter.mp hr).2
          rw [hrows] at hkey
          have hne := (List.nodup_cons.mp hkey).1
          rw [List.map_cons, hmem row (by simp), hmem row' (by simp)] at hne
          exact absurd List.mem_cons_self hne

/-- A deletion takes that row. -/
theorem countP_delete (users : UserTable) (username : String) (P : UserRow → Prop)
    [DecidablePred P] :
    users.rows.countP P = (users.delete username).rows.countP P +
      (users.row? username).toList.countP P := by
  rw [List.countP_eq_countP_filter_add users.rows P fun row => row.username ≠ username,
    ← users.filter_username username]
  simp [delete]

theorem countP_setPassword (users : UserTable) (username : String) (hash : PasswordHash)
    (version : ℕ) (role : Role) :
    (users.setPassword username hash version).rows.countP (fun row => row.role = role) =
      users.rows.countP fun row => row.role = role := by
  rw [setPassword, List.countP_map]
  refine List.countP_congr fun row _ => ?_
  simp only [Function.comp]
  split <;> exact Iff.rfl

theorem insert_sublist (h : users.insert row = some users') : users.rows.Sublist users'.rows := by
  unfold insert at h
  split at h
  · cases h
  · injection h with h
    exact h ▸ List.sublist_append_left _ _

theorem foldl_insertNew_sublist (users : UserTable) (news : List UserRow) :
    users.rows.Sublist (news.foldl insertNew users).rows := by
  induction news generalizing users with
  | nil => exact List.Sublist.refl _
  | cons new news ih =>
      refine List.Sublist.trans ?_ (ih (users.insertNew new))
      rw [insertNew]
      cases hinsert : users.insert new with
      | none => exact List.Sublist.refl _
      | some users' => exact insert_sublist hinsert

end UserTable

/-! ### The guard -/

abbrev UserStore.admins (s : UserStore) : ℕ := s.countRole .admin

def HasAdmin (s : UserStore) : Prop := 0 < s.admins

instance (s : UserStore) : Decidable (HasAdmin s) := inferInstanceAs (Decidable (0 < _))

/-- The guard of `delete_user`: the user is no admin, or not the only one. -/
def DeleteAllowed (s : UserStore) (username : String) : Prop :=
  ∀ row ∈ s.users.row? username, row.role = .admin → 1 < s.admins

instance (s : UserStore) (username : String) : Decidable (DeleteAllowed s username) :=
  inferInstanceAs (Decidable (∀ row ∈ s.users.row? username, _))

/-- The condition on a statement: a deletion that happens meets the guard. -/
def GuardHolds (c : UserChoice) : UserStmt → UserStore → Prop
  | .deleteRow username, s => c.fails = none → DeleteAllowed s username
  | _, _ => True

instance (c : UserChoice) (q : UserStmt) (s : UserStore) : Decidable (GuardHolds c q s) :=
  match q with
  | .deleteRow _ => inferInstanceAs (Decidable (c.fails = none → _))
  | .clock | .revokedExists .. | .getVersion _ | .setVersion .. | .updatePassword .. | .roleOf _
  | .countAdmins | .countUsers | .seedRows | .insertRow .. => inferInstanceAs (Decidable True)

/-- Every row is still there. -/
def Grows (s s' : UserStore) : Prop := s.users.rows.Sublist s'.users.rows

theorem Grows.admins_le {s s' : UserStore} (h : Grows s s') : s.admins ≤ s'.admins :=
  h.countP_le

theorem Grows.row? {s s' : UserStore} (h : Grows s s') {username : String} {row : UserRow}
    (hrow : s.users.row? username = some row) : s'.users.row? username = some row := by
  obtain ⟨hmem, hname⟩ := UserTable.row?_eq_some_iff.mp hrow
  exact UserTable.row?_eq_some_iff.mpr ⟨h.subset hmem, hname⟩

section Guard

variable (cfg : Config)

/-- A statement that neither deletes nor changes a row. -/
def OnlyAdds : UserStmt → Prop
  | .deleteRow _ => False
  | .updatePassword .. => False
  | _ => True

theorem userSem_grows (c : UserChoice) {q : UserStmt} (hq : OnlyAdds q) (s : UserStore) :
    Grows s (userSem cfg c q s).2 := by
  cases hfails : c.fails with
  | some m => cases q <;> simp only [userSem, hfails] <;> exact List.Sublist.refl _
  | none =>
      cases q with
      | deleteRow username => exact hq.elim
      | updatePassword username newPassword => exact hq.elim
      | seedRows =>
          simp only [userSem, hfails, userExec]
          exact UserTable.foldl_insertNew_sublist _ _
      | insertRow username password role tenant =>
          simp only [userSem, hfails, userExec]
          split
          · exact List.Sublist.refl _
          · split
            · exact List.Sublist.refl _
            · exact UserTable.insert_sublist ‹_›
      | getVersion p =>
          simp only [userSem, hfails, userExec]
          split <;> exact List.Sublist.refl _
      | _ =>
          simp only [userSem, hfails, userExec]
          exact List.Sublist.refl _

theorem updatePassword_admins (c : UserChoice) (username newPassword : String) (s : UserStore) :
    (userSem cfg c (.updatePassword username newPassword) s).2.admins = s.admins := by
  cases hfails : c.fails with
  | some m => simp only [userSem, hfails]; rfl
  | none =>
      simp only [userSem, hfails, userExec]
      split
      · rfl
      · split
        · rfl
        · exact UserTable.countP_setPassword ..

/-- A deletion leaves an admin exactly if it meets the guard. -/
theorem hasAdmin_delete {s : UserStore} (hadmin : HasAdmin s) (username : String) :
    0 < (s.users.delete username).rows.countP (fun row => row.role = .admin) ↔
      DeleteAllowed s username := by
  have hcount : s.admins = _ := s.users.countP_delete username fun row => row.role = .admin
  rw [HasAdmin] at hadmin
  rw [DeleteAllowed]
  cases hrow : s.users.row? username with
  | none =>
      rw [hrow, Option.toList_none, List.countP_nil] at hcount
      exact iff_of_true (by omega) nofun
  | some row =>
      rw [hrow, Option.toList_some, List.countP_singleton] at hcount
      by_cases hrole : row.role = .admin
      · rw [if_pos (by simpa using hrole)] at hcount
        constructor
        · intro hleft _ _ _
          omega
        · intro h
          have := h row rfl hrole
          omega
      · rw [if_neg (by simpa using hrole)] at hcount
        refine iff_of_true (by omega) ?_
        rintro _ ⟨⟩ h
        exact absurd h hrole

/-- A statement keeps an admin exactly if it meets the condition. -/
theorem hasAdmin_step (c : UserChoice) (q : UserStmt) {s : UserStore} (hadmin : HasAdmin s) :
    HasAdmin (userSem cfg c q s).2 ↔ GuardHolds c q s := by
  cases q with
  | deleteRow username =>
      cases hfails : c.fails with
      | some m =>
          simp only [userSem, hfails, GuardHolds]
          exact iff_of_true hadmin nofun
      | none =>
          simp only [userSem, hfails, userExec, GuardHolds, forall_const]
          exact hasAdmin_delete hadmin username
  | updatePassword username newPassword =>
      refine iff_of_true ?_ trivial
      exact lt_of_lt_of_eq hadmin (updatePassword_admins cfg c username newPassword s).symm
  | _ =>
      refine iff_of_true (lt_of_lt_of_le hadmin (Grows.admins_le ?_)) trivial
      exact userSem_grows cfg c (by trivial) s

/-- A call to `create_user` only adds rows. -/
theorem createUserSteps_onlyAdds (username password role : String) (tenant : Option String) :
    (createUserSteps username password role tenant).Issues OnlyAdds := by
  rw [createUserSteps]
  split
  · exact trivial
  · refine Prog.Issues.bind ((Prog.issues_call _).mpr trivial) fun n => ?_
    split
    · exact Prog.Issues.bind ((Prog.issues_call _).mpr trivial) fun _ =>
        (Prog.issues_call _).mpr trivial
    · exact (Prog.issues_call _).mpr trivial

/-- What a call to `delete_user` relies on to meet the guard: meanwhile others
only add rows. -/
def amongCreations : Rules UserStmt UserChoice UserStore where
  rely := Grows
  admits _ _ _ := True
  needs := GuardHolds

variable {cfg}

theorem wp_deleteRow {username : String} {s : UserStore}
    (h : ∀ s', Grows s s' → DeleteAllowed s' username) :
    wp (userSem cfg) amongCreations (Sql.deleteRow username) (fun _ _ => True) s :=
  (wp_call (userSem cfg) amongCreations (.deleteRow username) _ s).mpr
    fun s' hs' _ _ => ⟨fun _ => h s' hs', trivial⟩

/-- Where nobody else deletes, the guard that has let a deletion through still
holds when it happens. -/
theorem deleteUserSteps_guardHolds (username : String) (s : UserStore) :
    wp (userSem cfg) amongCreations (deleteUserSteps username) (fun _ _ => True) s := by
  rw [deleteUserSteps, wp_bind]
  refine (wp_call (userSem cfg) amongCreations (.roleOf username) _ s).mpr
    fun s₁ _ c₁ _ => ⟨trivial, ?_⟩
  cases hfails : c₁.fails with
  | some m =>
      simp only [userSem, hfails]
  | none =>
      simp only [userSem, hfails, userExec]
      cases hrow : s₁.users.row? username with
      | none => exact trivial
      | some row =>
          simp only [Option.map_some]
          -- the row stays, so its role is what has been read
          have hrole (s' : UserStore) (hs' : Grows s₁ s') (row' : UserRow)
              (hrow' : row' ∈ s'.users.row? username) : row' = row :=
            Option.some.inj ((Option.mem_def.mp hrow').symm.trans (hs'.row? hrow))
          split
          · rw [wp_bind]
            refine (wp_call (userSem cfg) amongCreations .countAdmins _ s₁).mpr
              fun s₂ hs₂ c₂ _ => ⟨trivial, ?_⟩
            cases hfails₂ : c₂.fails with
            | some m => simp only [userSem, hfails₂]
            | none =>
                simp only [userSem, hfails₂, userExec, wp_bind, wp_raiseIf]
                refine ⟨fun _ => trivial, fun hcount => wp_deleteRow fun s₃ hs₃ _ _ _ => ?_⟩
                exact lt_of_lt_of_le (not_le.mp hcount) hs₃.admins_le
          · rename_i hadmin
            exact wp_deleteRow fun s₂ hs₂ row' hrow' h =>
              absurd (hrole s₂ hs₂ row' hrow' ▸ h) hadmin

end Guard

/-! ### Two deletions -/

def twoAdmins : UserStore where
  users := {
    rows := [
      ⟨"admin", ⟨200000, "admin-salt", "digest"⟩, .admin, none, 0, false⟩,
      ⟨"root", ⟨200000, "root-salt", "digest"⟩, .admin, none, 0, false⟩]
    key := by decide }

/-- The next statements of some calls. -/
def userActs (calls : List ℕ) : List (Event UserChoice UserCall Empty) :=
  calls.map fun i => .act i { toMoment := atTime 1000 }

end DiepLab.Auth
