import Drust.Mgmt.DeviceGrants

/-!
# Owners

A host has an owner in every state that its requests reach (`owner_stays`): the statements that
demote or remove an owner look for another one under the lock that they run under. Who is an owner
or an admin changes only at the request of somebody who was an owner when the profile of the request
was read (`privileged_changed_by_owner`), which may have been long before the handler ran.
-/

namespace Drust

namespace AdminPlane

variable {cfg : Config} {db db' : AdminMeta}

def HasOwner (db : AdminMeta) : Prop :=
  ∃ i a, (i, a) ∈ db.admins.entries ∧ a.role = "owner"

/-- The owners and the admins. -/
def privileged (db : AdminMeta) : List (Int × Admin) :=
  db.admins.entries.filter fun e => isPrivileged e.2.role

/-- Who a request of the team page is from. -/
def Label.caller : Label → Option Int
  | .invite a _ _ _ _ | .batchInvite a _ _ _ _ | .changeRole a _ _ _ | .remove a _ _ => some a
  | _ => none

/-! ### What a request does to the admins -/

/-- A change of the admins, by a caller with this role. -/
inductive AdminsWrite (callerRole : String) (db db' : AdminMeta) : Prop
  | same (h : db'.admins = db.admins)
  | invited (role : String) (added : List (Int × Admin))
      (h : db'.admins.entries = db.admins.entries ++ added) (hrole : ∀ e ∈ added, e.2.role = role)
      (hallowed : isPrivileged role = true → callerRole = "owner")
  | changed (target : Int) (newRole : String) (h : db' = db.setRole newRole target)
      (hallowed : ∀ a, (target, a) ∈ db.admins.entries →
        isPrivileged newRole = true ∨ isPrivileged a.role = true → callerRole = "owner")
      (hother : newRole ≠ "owner" → ∀ a, (target, a) ∈ db.admins.entries → a.role = "owner" →
        hasOtherOwner db target = true)
  | removed (target : Int) (h : db' = db.deleteAdmin target)
      (hallowed : ∀ a, (target, a) ∈ db.admins.entries → isPrivileged a.role = true →
        callerRole = "owner")
      (hother : ∀ a, (target, a) ∈ db.admins.entries → a.role = "owner" →
        hasOtherOwner db target = true)

theorem exists_of_hasOtherOwner {target : Int} (h : hasOtherOwner db target = true) :
    ∃ i a, (i, a) ∈ db.admins.entries ∧ a.role = "owner" ∧ i ≠ target := by
  obtain ⟨⟨i, a⟩, hmem, ha⟩ := List.any_eq_true.mp h
  simp only [Bool.and_eq_true, beq_iff_eq, bne_iff_ne] at ha
  exact ⟨i, a, hmem, ha.1, ha.2⟩

theorem AdminsWrite.hasOwner {callerRole : String} (h : AdminsWrite callerRole db db')
    (howner : HasOwner db) : HasOwner db' := by
  obtain ⟨i, a, hmem, hrole⟩ := howner
  cases h with
  | same h => exact ⟨i, a, by rwa [h], hrole⟩
  | invited role added h _ _ => exact ⟨i, a, by rw [h]; exact List.mem_append_left _ hmem, hrole⟩
  | changed target newRole h _ hother =>
    subst h
    by_cases hnew : newRole = "owner"
    · refine ⟨i, if i == target then { a with role := newRole } else a,
        RowTable.mem_entries_update.mpr ⟨a, hmem, rfl⟩, ?_⟩
      split
      · exact hnew
      · exact hrole
    · by_cases hi : i = target
      · subst hi
        obtain ⟨j, b, hb, hbrole, hne⟩ := exists_of_hasOtherOwner (hother hnew a hmem hrole)
        exact ⟨j, b, RowTable.mem_entries_update.mpr ⟨b, hb, by simp [hne]⟩, hbrole⟩
      · exact ⟨i, a, RowTable.mem_entries_update.mpr ⟨a, hmem, by simp [hi]⟩, hrole⟩
  | removed target h _ hother =>
    subst h
    by_cases hi : i = target
    · subst hi
      obtain ⟨j, b, hb, hbrole, hne⟩ := exists_of_hasOtherOwner (hother a hmem hrole)
      exact ⟨j, b, RowTable.mem_entries_delete.mpr ⟨hb, by simp [hne]⟩, hbrole⟩
    · exact ⟨i, a, RowTable.mem_entries_delete.mpr ⟨hmem, by simp [hi]⟩, hrole⟩

theorem AdminsWrite.privileged {callerRole : String} (h : AdminsWrite callerRole db db')
    (hchange : privileged db' ≠ privileged db) : callerRole = "owner" := by
  cases h with
  | same h =>
    refine absurd ?_ hchange
    unfold AdminPlane.privileged
    rw [h]
  | invited role added h hrole hallowed =>
    refine hallowed ?_
    by_contra hnot
    refine hchange ?_
    have hadded : added.filter (fun e => isPrivileged e.2.role) = [] := by
      rw [List.filter_eq_nil_iff]
      intro e he
      rwa [hrole e he]
    unfold AdminPlane.privileged
    rw [h, List.filter_append, hadded, List.append_nil]
  | changed target newRole h hallowed _ =>
    by_contra hnot
    refine hchange ?_
    subst h
    unfold AdminPlane.privileged
    refine RowTable.filter_update (q := fun a : Admin => isPrivileged a.role) ?_
    intro i a hmem hi
    obtain rfl : i = target := beq_iff_eq.mp hi
    exact ⟨Bool.eq_false_iff.mpr fun hp => hnot (hallowed a hmem (Or.inl hp)),
      Bool.eq_false_iff.mpr fun hp => hnot (hallowed a hmem (Or.inr hp))⟩
  | removed target h hallowed _ =>
    by_contra hnot
    refine hchange ?_
    subst h
    unfold AdminPlane.privileged
    change (db.admins.entries.filter fun e => !(e.1 == target)).filter _ = _
    rw [List.filter_filter]
    refine List.filter_congr ?_
    rintro ⟨i, a⟩ hmem
    by_cases hi : i = target
    · subst hi
      have : isPrivileged a.role = false :=
        Bool.eq_false_iff.mpr fun hp => hnot (hallowed a hmem hp)
      simp [this]
    · simp [hi]

/-- What the invitations of one request add. -/
theorem insertOneAdmin_admins {hashToken : String → String} {email role draw : String}
    {out : InviteOutcome} (h : insertOneAdmin hashToken db email role draw = some (out, db')) :
    ∃ added : List (Int × Admin), db'.admins.entries = db.admins.entries ++ added ∧
      ∀ e ∈ added, e.2.role = role := by
  have hnone : ∃ added : List (Int × Admin), db.admins.entries = db.admins.entries ++ added ∧
      ∀ e ∈ added, e.2.role = role := ⟨[], (List.append_nil _).symm, List.forall_mem_nil _⟩
  unfold insertOneAdmin at h
  split at h
  · cases h
    exact hnone
  · split at h
    · cases h
      exact hnone
    · split at h
      · cases h
      · split at h
        · cases h
          exact hnone
        · next db₁ hadmin =>
          obtain ⟨db₂, hinsert, heq⟩ := Option.map_eq_some_iff.mp h
          cases heq
          rw [(AdminMeta.insertToken_eq_some hinsert).2.1, (AdminMeta.insertAdmin_eq_some hadmin).1]
          exact ⟨_, rfl, by simp⟩

theorem insertAdmins_admins {hashToken : String → String} {role : String}
    {draw : String → String} {emails : List String} :
    ∀ {db db' : AdminMeta} {out out' : BatchOutcome},
      insertAdmins hashToken role draw db out emails = some (out', db') →
        ∃ added : List (Int × Admin), db'.admins.entries = db.admins.entries ++ added ∧
          ∀ e ∈ added, e.2.role = role := by
  induction emails with
  | nil =>
    intro db db' out out' h
    cases h
    exact ⟨[], (List.append_nil _).symm, List.forall_mem_nil _⟩
  | cons e es ih =>
    intro db db' out out' h
    have hcons : ∀ {db₁ : AdminMeta} {one : InviteOutcome} {out : BatchOutcome},
        insertOneAdmin hashToken db e role (draw e) = some (one, db₁) →
          insertAdmins hashToken role draw db₁ out es = some (out', db') →
            ∃ added : List (Int × Admin), db'.admins.entries = db.admins.entries ++ added ∧
              ∀ e ∈ added, e.2.role = role := by
      intro db₁ one out hone hrest
      obtain ⟨added, hadded, hrole⟩ := insertOneAdmin_admins hone
      obtain ⟨added', hadded', hrole'⟩ := ih hrest
      refine ⟨added ++ added', by rw [hadded', hadded, List.append_assoc], ?_⟩
      exact fun e he => (List.mem_append.mp he).elim (hrole e) (hrole' e)
    rw [insertAdmins] at h
    split at h
    · next hone => exact hcons hone h
    · next hone => exact hcons hone h
    · cases h

/-- Nobody but an owner invites an owner or an admin. -/
theorem owner_of_inviteRefused {callerRole role : String} (h : inviteRefused callerRole role = none)
    (hrole : isPrivileged role = true) : callerRole = "owner" := by
  unfold inviteRefused at h
  split at h
  · cases h
  · split at h
    · cases h
    · split at h
      · cases h
      · next hnot => simpa [hrole, canManagePrivileged] using hnot

theorem adminsWrite_inviteAdmin {hashToken : String → String} (callerRole email : String)
    (role : Option String) (draw : String) :
    AdminsWrite callerRole db (inviteAdmin hashToken db callerRole email role draw).2 := by
  unfold inviteAdmin
  split
  · exact .same rfl
  · next hallowed =>
    dsimp only
    split
    · exact .same rfl
    · split
      · next hinsert =>
        obtain ⟨added, hadded, hrole⟩ := insertOneAdmin_admins hinsert
        exact .invited (role.getD "member") added hadded hrole (owner_of_inviteRefused hallowed)
      · exact .same rfl
      · exact .same rfl
      · exact .same rfl

theorem adminsWrite_batchInviteAdmin {hashToken : String → String} (batchMax : Option Nat)
    (callerRole : String) (emails : List String) (role : Option String)
    (draw : String → String) :
    AdminsWrite callerRole db
      (batchInviteAdmin hashToken batchMax db callerRole emails role draw).2 := by
  unfold batchInviteAdmin
  split
  · exact .same rfl
  · next hallowed =>
    split
    · exact .same rfl
    · split
      · next hinsert =>
        obtain ⟨added, hadded, hrole⟩ := insertAdmins_admins hinsert
        exact .invited (role.getD "member") added hadded hrole (owner_of_inviteRefused hallowed)
      · exact .same rfl

/-- A role is changed by an owner, unless neither role is privileged. -/
theorem adminsWrite_changeRole (callerRole : String) (target : Int) (newRole : String) :
    AdminsWrite callerRole db (changeRole db callerRole target newRole).2 := by
  unfold changeRole
  split
  · exact .same rfl
  · split
    · exact .same rfl
    · split
      · exact .same rfl
      · next a hget =>
        have hmem := RowTable.get_eq_some_iff.mp hget
        split
        · exact .same rfl
        · next hallowed =>
          split
          · exact .same rfl
          · split
            · exact .same rfl
            · next hother =>
              refine .changed target newRole rfl ?_ ?_
              · intro a' ha' hprivileged
                obtain rfl := RowTable.eq_of_mem hmem ha'
                simp only [Bool.and_eq_true, Bool.or_eq_true, not_and, canManagePrivileged] at hallowed
                simpa using hallowed hprivileged
              · intro hnew a' ha' howner
                obtain rfl := RowTable.eq_of_mem hmem ha'
                simpa [howner, hnew] using hother

theorem adminsWrite_removeAdmin (callerRole : String) (target : Int) :
    AdminsWrite callerRole db (removeAdmin db callerRole target).2 := by
  unfold removeAdmin
  split
  · exact .same rfl
  · split
    · exact .same rfl
    · next a hget =>
      have hmem := RowTable.get_eq_some_iff.mp hget
      split
      · exact .same rfl
      · next hallowed =>
        split
        · exact .same rfl
        · next hother =>
          refine .removed target rfl ?_ ?_
          · intro a' ha' hprivileged
            obtain rfl := RowTable.eq_of_mem hmem ha'
            simpa [hprivileged, canManagePrivileged] using hallowed
          · intro a' ha' howner
            obtain rfl := RowTable.eq_of_mem hmem ha'
            simpa [howner] using hother

/-! ### Runs -/

theorem admins_cliTokenRefresh {hashToken : String → String} (caller : CliCaller) (ttl : Int)
    (draw : String) (now : Int) :
    (cliTokenRefresh hashToken db caller ttl draw now).2.admins = db.admins := by
  unfold cliTokenRefresh
  split
  · rfl
  · split
    · rfl
    · split
      · rfl
      · next hinsert => exact (AdminMeta.insertToken_eq_some hinsert).2.1

/-- The admins change at the request of a caller, or not at all. -/
theorem adminsWrite_act {s s' : State} {l : Label} (hact : act cfg s l = some s') :
    s'.db.admins = s.db.admins ∨ ∃ caller callerRole, l.caller = some caller ∧
      (caller, callerRole) ∈ s.requests ∧ AdminsWrite callerRole s.db s'.db := by
  cases l with
  | tick now | sweep =>
    cases hact
    exact Or.inl rfl
  | session a | profile a | resolve authorization =>
    simp only [act] at hact
    split at hact <;> cases hact <;> exact Or.inl rfl
  | start clientName draws =>
    simp only [act] at hact
    split at hact
    · next hstart =>
      cases hact
      obtain ⟨d, -, hinsert⟩ := deviceStart_insert hstart
      exact Or.inl (AdminMeta.insertDevice_eq_some hinsert).2.1
    · cases hact
      exact Or.inl rfl
  | poll deviceCode now =>
    cases hact
    exact Or.inl (devicePoll_others deviceCode s.now now).1
  | deny a cookie form userCode =>
    simp only [act] at hact
    split at hact
    · cases hact
      exact Or.inl (deviceDeny_others a cookie form userCode).1
    · cases hact
  | approve a cookie form userCode draw now =>
    simp only [act] at hact
    split at hact
    · cases hact
      obtain heq | ⟨label, db₁, hinsert, hadmins, -⟩ :=
        deviceApprove_others cfg.hashToken cfg.csrfFor s.db a cookie form userCode
          (cliPatTtlSecs cfg.patTtl) draw s.now now
      · exact Or.inl (congrArg AdminMeta.admins heq)
      · exact Or.inl (hadmins.trans (AdminMeta.insertToken_eq_some hinsert).2.1)
    · cases hact
  | reroll a draw =>
    simp only [act] at hact
    split at hact
    · split at hact
      · next hreroll =>
        cases hact
        obtain ⟨db₁, hinsert, heq⟩ := Option.map_eq_some_iff.mp hreroll
        cases heq
        exact Or.inl (AdminMeta.insertToken_eq_some hinsert).2.1
      · cases hact
        exact Or.inl rfl
    · cases hact
  | refresh caller draw =>
    simp only [act] at hact
    split at hact
    · cases hact
      exact Or.inl (admins_cliTokenRefresh caller _ draw s.now)
    · cases hact
  | logout caller | revoke a tokenId =>
    simp only [act] at hact
    split at hact
    · cases hact
      exact Or.inl rfl
    · cases hact
  | invite a callerRole email role draw =>
    simp only [act] at hact
    split at hact
    · next hrequest =>
      cases hact
      exact Or.inr ⟨a, callerRole, rfl, hrequest, adminsWrite_inviteAdmin callerRole email role draw⟩
    · cases hact
  | batchInvite a callerRole emails role draw =>
    simp only [act] at hact
    split at hact
    · next hrequest =>
      cases hact
      exact Or.inr ⟨a, callerRole, rfl, hrequest,
        adminsWrite_batchInviteAdmin cfg.batchMax callerRole emails role draw⟩
    · cases hact
  | changeRole a callerRole target newRole =>
    simp only [act] at hact
    split at hact
    · next hrequest =>
      cases hact
      exact Or.inr ⟨a, callerRole, rfl, hrequest, adminsWrite_changeRole callerRole target newRole⟩
    · cases hact
  | remove a callerRole target =>
    simp only [act] at hact
    split at hact
    · next hrequest =>
      cases hact
      exact Or.inr ⟨a, callerRole, rfl, hrequest, adminsWrite_removeAdmin callerRole target⟩
    · cases hact

theorem HasOwner.step {s s' : State} {l : Label} (h : HasOwner s.db)
    (hstep : step cfg s l = some s') : HasOwner s'.db := by
  obtain ⟨t, hact, rfl⟩ := Option.map_eq_some_iff.mp hstep
  obtain hsame | ⟨-, callerRole, -, -, hwrite⟩ := adminsWrite_act hact
  · have hwrite : AdminsWrite "" s.db _ := .same hsame
    exact hwrite.hasOwner h
  · exact hwrite.hasOwner h

/-- A host that has an owner keeps one, whatever the requests ask for and however they
interleave. -/
theorem owner_stays (cfg : Config) (db : AdminMeta) (now : Int) (ls : List Label) (s : State)
    (howner : HasOwner db) (hrun : Transition.run (step cfg) (start db now) ls = some s) :
    HasOwner s.db := by
  have hkept : ∀ {s l s'}, HasOwner s.db → step cfg s l = some s' → HasOwner s'.db :=
    fun h hstep => h.step hstep
  exact Transition.run_invariant hkept howner hrun

/-- The member becomes an owner, and both owners ask for the removal of the other one. The request of
the one who is removed still has the profile of an owner. -/
def crossedRemovals : List Label :=
  [.session 1, .profile 1, .changeRole 1 "owner" 2 "owner", .session 2, .profile 2,
    .remove 1 "owner" 2, .remove 2 "owner" 1]

theorem owner_stays_crossed :
    ∃ s, Transition.run (step plainConfig) (start twoAdmins 0) crossedRemovals = some s ∧
      s.db.admins.ids = [1] ∧ HasOwner s.db := by
  have hsome : (Transition.run (step plainConfig) (start twoAdmins 0) crossedRemovals).map
      (fun s => s.db.admins.ids) = some [1] := by decide +kernel
  obtain ⟨s, hrun, hids⟩ := Option.map_eq_some_iff.mp hsome
  exact ⟨s, hrun, hids, owner_stays plainConfig twoAdmins 0 crossedRemovals s
    ⟨1, { username := "ann", role := "owner" }, List.mem_cons_self, rfl⟩ hrun⟩

/-- A request with a profile is made by the profile layer. -/
theorem requests_step {s s' : State} {l : Label} {request : Int × String}
    (hstep : step cfg s l = some s') (hnot : request ∉ s.requests)
    (hmem : request ∈ s'.requests) : request = (request.1, profileRole s.db request.1) := by
  obtain ⟨t, hact, rfl⟩ := Option.map_eq_some_iff.mp hstep
  cases l with
  | profile a =>
    simp only [act] at hact
    split at hact
    · cases hact
      obtain rfl := (List.mem_cons.mp hmem).resolve_right hnot
      rfl
    · cases hact
  | tick now | sweep | poll deviceCode now =>
    cases hact
    exact absurd hmem hnot
  | start clientName draws | resolve authorization =>
    simp only [act] at hact
    split at hact <;> cases hact <;> exact absurd hmem hnot
  | reroll a draw =>
    simp only [act] at hact
    split at hact
    · split at hact <;> cases hact <;> exact absurd hmem hnot
    · cases hact
  | _ =>
    simp only [act] at hact
    split at hact
    · cases hact
      exact absurd hmem hnot
    · cases hact

/-- Whoever changes who is an owner or an admin was an owner when the request was let in. -/
theorem privileged_changed_by_owner (cfg : Config) (db : AdminMeta) (now : Int) (ls : List Label)
    (l : Label) (s s' : State) (hrun : Transition.run (step cfg) (start db now) ls = some s)
    (hstep : step cfg s l = some s') (hchange : privileged s'.db ≠ privileged s.db) :
    ∃ caller, l.caller = some caller ∧ ∃ ls₁ ls₂ t row, ls = ls₁ ++ ls₂ ∧
      Transition.run (step cfg) (start db now) ls₁ = some t ∧
      (caller, row) ∈ t.db.admins.entries ∧ row.role = "owner" := by
  obtain ⟨t, hact, rfl⟩ := Option.map_eq_some_iff.mp hstep
  obtain hsame | ⟨caller, callerRole, hcaller, hrequest, hwrite⟩ := adminsWrite_act hact
  · have hwrite : AdminsWrite "" s.db _ := .same hsame
    exact absurd (hwrite.privileged hchange) (by decide)
  · obtain rfl := hwrite.privileged hchange
    obtain ⟨ls₁, l', ls₂, u, u', rfl, hrun₁, hstep', hnot, hmem⟩ :=
      Transition.run_entered (P := fun s => (caller, "owner") ∈ s.requests) hrun
        List.not_mem_nil hrequest
    have hrole := congrArg Prod.snd (requests_step hstep' hnot hmem)
    -- the placeholder profile is a member
    unfold profileRole at hrole
    cases hget : u.db.admins.get caller with
    | none =>
      rw [hget] at hrole
      exact absurd (show "owner" = "member" from hrole) (by decide)
    | some row =>
      rw [hget] at hrole
      exact ⟨caller, hcaller, ls₁, l' :: ls₂, u, row, rfl, hrun₁,
        RowTable.get_eq_some_iff.mp hget, hrole.symm⟩

theorem privileged_changed_by_owner_promotion :
    ∃ s s', Transition.run (step plainConfig) (start twoAdmins 0) [.session 1, .profile 1] = some s ∧
      step plainConfig s (.changeRole 1 "owner" 2 "owner") = some s' ∧
      ∃ caller, Label.caller (.changeRole 1 "owner" 2 "owner") = some caller ∧
        ∃ ls₁ ls₂ t row, [.session 1, .profile 1] = ls₁ ++ ls₂ ∧
          Transition.run (step plainConfig) (start twoAdmins 0) ls₁ = some t ∧
          (caller, row) ∈ t.db.admins.entries ∧ row.role = "owner" := by
  have hsome : ((Transition.run (step plainConfig) (start twoAdmins 0) [.session 1, .profile 1]).bind
      fun s => (step plainConfig s (.changeRole 1 "owner" 2 "owner")).map fun s' =>
        decide (privileged s'.db ≠ privileged s.db)) = some true := by decide +kernel
  obtain ⟨s, hrun, hstep⟩ := Option.bind_eq_some_iff.mp hsome
  obtain ⟨s', hstep, hchange⟩ := Option.map_eq_some_iff.mp hstep
  exact ⟨s, s', hrun, hstep, privileged_changed_by_owner plainConfig twoAdmins 0 _ _ s s' hrun hstep
    (of_decide_eq_true hchange)⟩

end AdminPlane

end Drust
