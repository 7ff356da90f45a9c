import Drust.Tenant.Accounts
import Drust.Lib.Result

/-!
# What a claim takes away

After an account is claimed, and after its user has changed the password, the sessions from before are
gone, and a claimed account has no password. This is so in every run in which no login and no change of
a password ends after the reset of an account whose hash it has read before (`reset_revokes`): the second
part of a login writes its session whatever has become of the hash, and the second part of a change writes
the hash that it has made. A change that is under way when an account is claimed takes the account back
(`claim_undone`).
-/

namespace Drust

namespace Accounts

variable {cfg : Config} {n m : Nat} {db db' : Db} {s s' : State} {l : Label}

/-! ### The tables -/

/-- What holds of the tables: the versions have been drawn, a session has the version of its user, and an
account that the provider has claimed has no password. -/
structure DbOk (n : Nat) (db : Db) : Prop where
  drawn : ∀ id u, db.users.get id = some u → u.version < n
  current : ∀ hash row u, db.sessions.get hash = some row → db.users.get row.userId = some u →
    row.version = u.version
  claimed : ∀ id u, db.users.get id = some u → u.claimed = true → u.passwordHash = oauthOnlySentinel

/-- What a step may do to the users: a row keeps its version and is not claimed, or it has a version that
is not drawn yet. -/
def UsersStep (n : Nat) (users users' : KeyMap String User) : Prop :=
  ∀ id u', users'.get id = some u' →
    (∃ u, users.get id = some u ∧ u.version = u'.version ∧ (u.claimed = false → u'.claimed = false)) ∨
      n ≤ u'.version

theorem UsersStep.refl (n : Nat) (users : KeyMap String User) : UsersStep n users users :=
  fun _ u hu => Or.inl ⟨u, hu, rfl, fun h => h⟩

theorem DbOk.mono (h : DbOk n db) (hnm : n ≤ m) : DbOk m db :=
  ⟨fun id u hu => (h.drawn id u hu).trans_le hnm, h.current, h.claimed⟩

theorem insertUser_eq_some {id : String} {u : User} (h : db.insertUser id u = some db') :
    id ∉ db.users.keys ∧ db'.users = db.users.set id u ∧ db'.sessions = db.sessions := by
  unfold Db.insertUser at h
  split at h
  · next hnew =>
    cases h
    exact ⟨hnew.1, rfl, rfl⟩
  · cases h

theorem updateUser_eq_some {id : String} {f : User → User} (h : db.updateUser id f = some db') :
    db'.users = db.users.mapValues (fun k u => if k = id then f u else u) ∧
      db'.sessions = db.sessions := by
  unfold Db.updateUser at h
  split at h
  · cases h
    exact ⟨rfl, rfl⟩
  · cases h

theorem insertSession_eq_some {hash : String} {row : Session}
    (h : db.insertSession hash row = some db') :
    row.userId ∈ db.users.keys ∧ db'.users = db.users ∧ db'.sessions = db.sessions.set hash row := by
  unfold Db.insertSession at h
  split at h
  · next hnew =>
    cases h
    exact ⟨hnew.2, rfl, rfl⟩
  · cases h

/-- The row under a key after one row was changed. -/
theorem get_changed {users : KeyMap String User} {id k : String} {f : User → User} {u' : User}
    (h : (users.mapValues fun k u => if k = id then f u else u).get k = some u') :
    ∃ u, users.get k = some u ∧ (k = id ∧ u' = f u ∨ k ≠ id ∧ u' = u) := by
  rw [KeyMap.get_mapValues, Option.map_eq_some_iff] at h
  obtain ⟨u, hu, rfl⟩ := h
  by_cases hk : k = id
  · exact ⟨u, hu, Or.inl ⟨hk, if_pos hk⟩⟩
  · exact ⟨u, hu, Or.inr ⟨hk, if_neg hk⟩⟩

/-- A new user has no sessions, since sessions have users. -/
theorem DbOk.insertUser {id : String} {u : User} (h : DbOk n db) (hins : db.insertUser id u = some db')
    (hversion : u.version < n) (hclaimed : u.claimed = true → u.passwordHash = oauthOnlySentinel) :
    DbOk n db' := by
  obtain ⟨hnew, husers, hsessions⟩ := insertUser_eq_some hins
  have hget : ∀ k u', db'.users.get k = some u' → k = id ∧ u' = u ∨ db.users.get k = some u' := by
    intro k u' hu'
    rw [husers] at hu'
    by_cases hk : k = id
    · subst hk
      rw [KeyMap.get_set_self] at hu'
      exact Or.inl ⟨rfl, (Option.some.inj hu').symm⟩
    · rw [KeyMap.get_set_of_ne hk] at hu'
      exact Or.inr hu'
  refine ⟨?_, ?_, ?_⟩
  · intro k u' hu'
    obtain ⟨-, rfl⟩ | hold := hget k u' hu'
    · exact hversion
    · exact h.drawn k u' hold
  · intro hash row u' hrow hu'
    rw [hsessions] at hrow
    obtain ⟨hk, -⟩ | hold := hget row.userId u' hu'
    · exact absurd (hk ▸ db.owners hash row hrow) hnew
    · exact h.current hash row u' hrow hold
  · intro k u' hu' hp
    obtain ⟨-, rfl⟩ | hold := hget k u' hu'
    · exact hclaimed hp
    · exact h.claimed k u' hold hp

/-- A user is changed, and stays the same account. -/
theorem DbOk.updateUser {id : String} {f : User → User} (h : DbOk n db)
    (hupd : db.updateUser id f = some db') (hversion : ∀ u, (f u).version = u.version)
    (hclaimed : ∀ u, (u.claimed = true → u.passwordHash = oauthOnlySentinel) → (f u).claimed = true →
      (f u).passwordHash = oauthOnlySentinel) : DbOk n db' := by
  obtain ⟨husers, hsessions⟩ := updateUser_eq_some hupd
  refine ⟨?_, ?_, ?_⟩
  · intro k u' hu'
    rw [husers] at hu'
    obtain ⟨u, hu, ⟨-, rfl⟩ | ⟨-, rfl⟩⟩ := get_changed hu'
    · rw [hversion]
      exact h.drawn k u hu
    · exact h.drawn k u' hu
  · intro hash row u' hrow hu'
    rw [hsessions] at hrow
    rw [husers] at hu'
    obtain ⟨u, hu, ⟨-, rfl⟩ | ⟨-, rfl⟩⟩ := get_changed hu'
    · rw [hversion]
      exact h.current hash row u hrow hu
    · exact h.current hash row u' hrow hu
  · intro k u' hu' hp
    rw [husers] at hu'
    obtain ⟨u, hu, ⟨-, rfl⟩ | ⟨-, rfl⟩⟩ := get_changed hu'
    · exact hclaimed u (h.claimed k u hu) hp
    · exact h.claimed k u' hu hp

theorem DbOk.deleteSessions (h : DbOk n db) (p : String → Session → Bool) :
    DbOk n (db.deleteSessions p) := by
  refine ⟨h.drawn, ?_, h.claimed⟩
  intro hash row u hrow hu
  rw [Db.deleteSessions, KeyMap.get_retain, Option.filter_eq_some_iff] at hrow
  exact h.current hash row u hrow.1 hu

theorem get_revokeAllSessions {id hash : String} {row : Session}
    (h : (db.revokeAllSessions id).sessions.get hash = some row) :
    db.sessions.get hash = some row ∧ row.userId ≠ id := by
  rw [Db.revokeAllSessions, Db.deleteSessions, KeyMap.get_retain, Option.filter_eq_some_iff] at h
  exact ⟨h.1, by simpa using h.2⟩

/-- An account is reset: it has the next version, and no sessions. -/
theorem DbOk.reset {id : String} {f : User → User} (h : DbOk n db)
    (hupd : db.updateUser id f = some db') (hversion : ∀ u, (f u).version = n)
    (hclaimed : ∀ u, db.users.get id = some u → (f u).claimed = true →
      (f u).passwordHash = oauthOnlySentinel) : DbOk (n + 1) (db'.revokeAllSessions id) := by
  obtain ⟨husers, hsessions⟩ := updateUser_eq_some hupd
  have hget : ∀ k u', (db'.revokeAllSessions id).users.get k = some u' →
      ∃ u, db.users.get k = some u ∧ (k = id ∧ u' = f u ∨ k ≠ id ∧ u' = u) := by
    intro k u' hu'
    change db'.users.get k = some u' at hu'
    rw [husers] at hu'
    exact get_changed hu'
  refine ⟨?_, ?_, ?_⟩
  · intro k u' hu'
    obtain ⟨u, hu, ⟨-, rfl⟩ | ⟨-, rfl⟩⟩ := hget k u' hu'
    · rw [hversion]
      exact Nat.lt_succ_self n
    · exact Nat.lt_succ_of_lt (h.drawn k u' hu)
  · intro hash row u' hrow hu'
    obtain ⟨hrow, hother⟩ := get_revokeAllSessions hrow
    rw [hsessions] at hrow
    obtain ⟨u, hu, ⟨hk, -⟩ | ⟨-, rfl⟩⟩ := hget row.userId u' hu'
    · exact absurd hk hother
    · exact h.current hash row u' hrow hu
  · intro k u' hu' hp
    obtain ⟨u, hu, ⟨rfl, rfl⟩ | ⟨-, rfl⟩⟩ := hget k u' hu'
    · exact hclaimed u hu hp
    · exact h.claimed k u' hu hp

theorem DbOk.insertSession {hash : String} {row : Session} (h : DbOk n db)
    (hins : db.insertSession hash row = some db')
    (hversion : ∀ u, db.users.get row.userId = some u → row.version = u.version) : DbOk n db' := by
  obtain ⟨-, husers, hsessions⟩ := insertSession_eq_some hins
  refine ⟨by rw [husers]; exact h.drawn, ?_, by rw [husers]; exact h.claimed⟩
  intro hash' row' u hrow' hu
  rw [hsessions] at hrow'
  rw [husers] at hu
  by_cases heq : hash' = hash
  · subst heq
    rw [KeyMap.get_set_self] at hrow'
    cases hrow'
    exact hversion u hu
  · rw [KeyMap.get_set_of_ne heq] at hrow'
    exact h.current hash' row' u hrow' hu

theorem DbOk.slideExpiry (h : DbOk n db) (hash : String) (expiresAt : Int) :
    DbOk n (db.slideExpiry hash expiresAt) := by
  refine ⟨h.drawn, ?_, h.claimed⟩
  intro hash' row u hrow hu
  rw [Db.slideExpiry, KeyMap.get_mapValues, Option.map_eq_some_iff] at hrow
  obtain ⟨row, hrow, rfl⟩ := hrow
  have hsame : (if hash' = hash then { row with expiresAt := expiresAt } else row).userId = row.userId ∧
      (if hash' = hash then { row with expiresAt := expiresAt } else row).version = row.version := by
    split
    · exact ⟨rfl, rfl⟩
    · exact ⟨rfl, rfl⟩
  rw [hsame.1] at hu
  rw [hsame.2]
  exact h.current hash' row u hrow hu

theorem get_deleteUser {id k : String} {u : User} (h : (db.deleteUser id).users.get k = some u) :
    db.users.get k = some u := by
  change (db.users.erase id).get k = some u at h
  rw [KeyMap.erase, KeyMap.get_retain, Option.filter_eq_some_iff] at h
  exact h.1

theorem DbOk.deleteUser (h : DbOk n db) (id : String) : DbOk n (db.deleteUser id) := by
  refine ⟨fun k u hu => h.drawn k u (get_deleteUser hu), ?_,
    fun k u hu => h.claimed k u (get_deleteUser hu)⟩
  intro hash row u hrow hu
  exact h.current hash row u (get_revokeAllSessions hrow).1 (get_deleteUser hu)

/-! ### The steps -/

theorem UsersStep.insertUser {id : String} {u : User} (hins : db.insertUser id u = some db')
    (hversion : n ≤ u.version) : UsersStep n db.users db'.users := by
  obtain ⟨-, husers, -⟩ := insertUser_eq_some hins
  intro k u' hu'
  rw [husers] at hu'
  by_cases hk : k = id
  · subst hk
    rw [KeyMap.get_set_self] at hu'
    cases hu'
    exact Or.inr hversion
  · rw [KeyMap.get_set_of_ne hk] at hu'
    exact Or.inl ⟨u', hu', rfl, fun h => h⟩

theorem UsersStep.updateUser {id : String} {f : User → User} (hupd : db.updateUser id f = some db')
    (hf : ∀ u, u.version = (f u).version ∧ (u.claimed = false → (f u).claimed = false) ∨
      n ≤ (f u).version) : UsersStep n db.users db'.users := by
  obtain ⟨husers, -⟩ := updateUser_eq_some hupd
  intro k u' hu'
  rw [husers] at hu'
  obtain ⟨u, hu, ⟨-, rfl⟩ | ⟨-, rfl⟩⟩ := get_changed hu'
  · exact (hf u).imp_left fun h => ⟨u, hu, h.1, h.2⟩
  · exact Or.inl ⟨u', hu, rfl, fun h => h⟩

theorem UsersStep.deleteUser (n : Nat) (db : Db) (id : String) :
    UsersStep n db.users (db.deleteUser id).users :=
  fun _ u hu => Or.inl ⟨u, get_deleteUser hu, rfl, fun h => h⟩

/-- A change that is under way has read the hash of an account that was not claimed, and the account is
not claimed as long as it has the version that was read. -/
def ChangesOk (n : Nat) (users : KeyMap String User) (changes : List Change) : Prop :=
  ∀ c ∈ changes, c.version < n ∧
    ∀ u, users.get c.userId = some u → u.version = c.version → u.claimed = false

theorem ChangesOk.step {users users' : KeyMap String User} {changes changes' : List Change}
    (h : ChangesOk n users changes) (hstep : UsersStep n users users') (hnm : n ≤ m)
    (hsub : ∀ c ∈ changes', c ∈ changes) : ChangesOk m users' changes' := by
  intro c hc
  obtain ⟨hdrawn, hclaimed⟩ := h c (hsub c hc)
  refine ⟨hdrawn.trans_le hnm, ?_⟩
  intro u' hu' hversion
  obtain ⟨u, hu, hsame, hkeeps⟩ | hnew := hstep _ u' hu'
  · exact hkeeps (hclaimed u hu (hsame.trans hversion))
  · omega

structure Inv (s : State) : Prop where
  db : DbOk s.versions s.db
  changes : ChangesOk s.versions s.db.users s.changes

theorem dbOk_empty (n : Nat) : DbOk n .empty := by
  refine ⟨?_, ?_, ?_⟩
  · intro id u hu
    cases hu
  · intro hash row u hrow
    cases hrow
  · intro id u hu
    cases hu

theorem inv_start : Inv {} where
  db := dbOk_empty 0
  changes := List.forall_mem_nil _

/-- The tables change, and the users make a step. -/
theorem Inv.of_step {t : State} (h : Inv s) (hdb : DbOk t.versions t.db)
    (husers : UsersStep s.versions s.db.users t.db.users) (hle : s.versions ≤ t.versions)
    (hsub : ∀ c ∈ t.changes, c ∈ s.changes) : Inv t :=
  ⟨hdb, h.changes.step husers hle hsub⟩

theorem Inv.register {email password : String} {profile : Option String} {allow : Bool}
    {userId salt : String} (h : Inv s)
    (hreg : Accounts.register cfg s email password profile allow userId salt = .ok s') : Inv s' := by
  obtain ⟨-, -, hreg⟩ := Except.bind_eq_ok_iff.mp hreg
  obtain ⟨-, -, hreg⟩ := Except.bind_eq_ok_iff.mp hreg
  obtain ⟨-, -, hreg⟩ := Except.bind_eq_ok_iff.mp hreg
  obtain ⟨-, -, hreg⟩ := Except.bind_eq_ok_iff.mp hreg
  split at hreg
  · cases hreg
  · next db hins =>
    cases hreg
    refine h.of_step ?_ (UsersStep.insertUser hins (Nat.le_refl _)) (Nat.le_succ _) fun _ hc => hc
    exact (h.db.mono (Nat.le_succ _)).insertUser hins (Nat.lt_succ_self _) fun hp => by cases hp

theorem Inv.createUser {email password : String} {profile : Option String} {verified : Bool}
    {userId salt : String} (h : Inv s)
    (hcreate : Accounts.createUser cfg s email password profile verified userId salt = .ok s') :
    Inv s' := by
  unfold Accounts.createUser at hcreate
  split at hcreate
  · cases hcreate
  · next db hins =>
    cases hcreate
    refine h.of_step ?_ (UsersStep.insertUser hins (Nat.le_refl _)) (Nat.le_succ _) fun _ hc => hc
    exact (h.db.mono (Nat.le_succ _)).insertUser hins (Nat.lt_succ_self _) fun hp => by cases hp

theorem Inv.updateUser {userId salt : String} {email password profile : Option String}
    {verified : Option Bool} (h : Inv s)
    (hupdate : Accounts.updateUser cfg s userId email password profile verified salt = .ok s') :
    Inv s' := by
  unfold Accounts.updateUser at hupdate
  dsimp only at hupdate
  split at hupdate
  · cases hupdate
  · next db hupd =>
    split at hupdate
    · cases hupdate
      refine h.of_step (h.db.updateUser hupd (fun _ => rfl) ?_) (UsersStep.updateUser hupd ?_)
        (Nat.le_refl _) fun _ hc => hc
      · -- a password that is given ends the proof
        intro u hold hp
        obtain ⟨hclaimed, hnone⟩ := Bool.and_eq_true_iff.mp hp
        rw [Option.isNone_iff_eq_none] at hnone
        rw [hnone]
        exact hold hclaimed
      · exact fun u => Or.inl ⟨rfl, fun hp => by rw [hp]; rfl⟩
    · cases hupdate

theorem Inv.mePatch {ctx : AuthCtx} {profile : String} (h : Inv s)
    (hpatch : Accounts.mePatch s ctx profile = .ok s') : Inv s' := by
  obtain ⟨-, -, hpatch⟩ := Except.bind_eq_ok_iff.mp hpatch
  split at hpatch
  · cases hpatch
  · next db hupd =>
    split at hpatch
    · cases hpatch
      exact h.of_step (h.db.updateUser hupd (fun _ => rfl) fun _ hold => hold)
        (UsersStep.updateUser hupd fun _ => Or.inl ⟨rfl, fun hp => hp⟩) (Nat.le_refl _) fun _ hc => hc
    · cases hpatch

theorem Inv.loginRead {email password : String} (h : Inv s)
    (hlogin : Accounts.loginRead cfg s email password = .ok s') : Inv s' := by
  unfold Accounts.loginRead at hlogin
  split at hlogin
  · cases hlogin
  · split at hlogin
    · cases hlogin
    · split at hlogin
      · cases hlogin
      · cases hlogin
        exact h.of_step h.db (UsersStep.refl _ _) (Nat.le_refl _) fun _ hc => hc

/-- The hash that is read is of an account that is not claimed, since it is a password. -/
theorem Inv.passwordRead {ctx : AuthCtx} {currentPassword newPassword salt : String} (h : Inv s)
    (hread : Accounts.passwordRead cfg s ctx currentPassword newPassword salt = .ok s') : Inv s' := by
  obtain ⟨-, -, hread⟩ := Except.bind_eq_ok_iff.mp hread
  split at hread
  · cases hread
  · next u hu =>
    split at hread
    · cases hread
    · next hpassword =>
      split at hread
      · cases hread
      · cases hread
        refine ⟨h.db, ?_⟩
        intro c hc
        obtain hc | hc := List.mem_append.mp hc
        · exact h.changes c hc
        · rw [List.mem_singleton.mp hc]
          refine ⟨h.db.drawn _ u hu, ?_⟩
          intro u' hu' _
          obtain rfl : u = u' := Option.some.inj (hu.symm.trans hu')
          rw [← Bool.not_eq_true]
          intro hp
          exact hpassword (beq_iff_eq.mpr (h.db.claimed _ u hu hp))

/-! ### The steps that end a login, a change or a callback -/

/-- A login or a change of the password ends on the version that it has read. -/
def Uncrossed (s : State) : Label → Prop
  | .loginWrite login _ => ∀ u ∈ s.db.users.get login.userId, u.version = login.version
  | .passwordWrite change _ => ∀ u ∈ s.db.users.get change.userId, u.version = change.version
  | _ => True

instance Uncrossed.decidable (s : State) : ∀ l, Decidable (Uncrossed s l)
  | .loginWrite login _ => inferInstanceAs (Decidable (∀ u ∈ s.db.users.get login.userId, _ = _))
  | .passwordWrite change _ => inferInstanceAs (Decidable (∀ u ∈ s.db.users.get change.userId, _ = _))
  | .tick _ | .register _ _ _ _ _ _ | .loginRead _ _ | .authenticate _ | .slideExpiry _ | .logout _
  | .logoutAll _ | .mePatch _ _ | .passwordRead _ _ _ _ | .oauthSignIn _ _ _ _ _ _
  | .createUser _ _ _ _ _ _ | .updateUser _ _ _ _ _ _ | .deleteUser _ | .revokeSessions _ =>
    inferInstanceAs (Decidable True)

theorem createSession_eq_some {userId draw : String} {version : Nat}
    (h : createSession cfg s db userId version draw = some db') :
    ∃ row, db.insertSession (cfg.hashToken (generateToken draw)) row = some db' ∧
      row.userId = userId ∧ row.version = version :=
  ⟨_, h, rfl, rfl⟩

theorem DbOk.createSession {userId draw : String} {version : Nat} (h : DbOk n db)
    (hcreate : createSession cfg s db userId version draw = some db')
    (hversion : ∀ u, db.users.get userId = some u → u.version = version) :
    DbOk n db' ∧ db'.users = db.users := by
  obtain ⟨row, hins, rfl, rfl⟩ := createSession_eq_some hcreate
  exact ⟨h.insertSession hins fun u hu => (hversion u hu).symm, (insertSession_eq_some hins).2.1⟩

theorem Inv.loginWrite {login : Login} {draw : String} (h : Inv s)
    (hcrossed : Uncrossed s (.loginWrite login draw))
    (hwrite : Accounts.loginWrite cfg s login draw = .ok s') : Inv s' := by
  unfold Accounts.loginWrite at hwrite
  split at hwrite
  · cases hwrite
  · next db hcreate =>
    cases hwrite
    obtain ⟨hdb, husers⟩ := h.db.createSession hcreate hcrossed
    refine h.of_step hdb ?_ (Nat.le_refl _) fun _ hc => hc
    dsimp only
    rw [husers]
    exact UsersStep.refl _ _

/-- A user has the version that a reset has drawn. -/
theorem version_reset {id : String} {f : User → User} (hupd : db.updateUser id f = some db')
    (hversion : ∀ u, (f u).version = n) {u : User}
    (hu : (db'.revokeAllSessions id).users.get id = some u) : u.version = n := by
  obtain ⟨husers, -⟩ := updateUser_eq_some hupd
  change db'.users.get id = some u at hu
  rw [husers] at hu
  obtain ⟨u', -, ⟨-, rfl⟩ | ⟨hne, -⟩⟩ := get_changed hu
  · exact hversion u'
  · exact absurd rfl hne

theorem Inv.passwordWrite {change : Change} {draw : String} (h : Inv s)
    (hmem : change ∈ s.changes) (hcrossed : Uncrossed s (.passwordWrite change draw))
    (hwrite : Accounts.passwordWrite cfg s change draw = .ok s') : Inv s' := by
  unfold Accounts.passwordWrite at hwrite
  dsimp only at hwrite
  split at hwrite
  · cases hwrite
  · next db hwritten =>
    cases hwrite
    obtain ⟨db₁, hupd, hcreate⟩ := Option.bind_eq_some_iff.mp hwritten
    obtain ⟨-, hclaimed⟩ := h.changes change hmem
    have hreset : DbOk (s.versions + 1) (db₁.revokeAllSessions change.userId) := by
      refine h.db.reset hupd (fun _ => rfl) ?_
      -- the account is not claimed, since it has the version that the change has read
      intro u hu hp
      have hnot := hclaimed u hu (hcrossed u hu)
      rw [show u.claimed = true from hp] at hnot
      cases hnot
    obtain ⟨hdb, husers⟩ := hreset.createSession hcreate fun u hu =>
      version_reset hupd (fun _ => rfl) hu
    have hstep : UsersStep s.versions s.db.users db₁.users := by
      refine UsersStep.updateUser hupd ?_
      exact fun _ => Or.inr (Nat.le_refl _)
    refine h.of_step hdb ?_ (Nat.le_succ _) fun _ hc => List.mem_of_mem_erase hc
    dsimp only
    rw [husers]
    exact hstep

theorem mem_of_findByEmail {email id : String} {u : User} (h : db.findByEmail email = some (id, u)) :
    db.users.get id = some u :=
  KeyMap.get_eq_some_iff.mpr (List.mem_of_find?_eq_some h)

/-- The user that a callback resolves to has the version that the session gets. -/
theorem findOrCreateUser_eq_ok {email profile newId id : String} {allow : Bool} {how : Resolved}
    {version : Nat} (h : Inv s)
    (hfind : findOrCreateUser s email profile allow newId = .ok (how, id, version, db')) :
    DbOk (s.versions + 1) db' ∧ UsersStep s.versions s.db.users db'.users ∧
      ∀ u, db'.users.get id = some u → u.version = version := by
  unfold findOrCreateUser at hfind
  split at hfind
  · next id u hu =>
    split at hfind
    · split at hfind
      · cases hfind
      · next db₁ hupd =>
        cases hfind
        -- claimed: the hash is wiped and the version is a new one
        have hstep : UsersStep s.versions s.db.users db₁.users := by
          refine UsersStep.updateUser hupd ?_
          exact fun _ => Or.inr (Nat.le_refl _)
        exact ⟨h.db.reset hupd (fun _ => rfl) fun _ _ _ => rfl, hstep, fun u hu =>
          version_reset hupd (fun _ => rfl) hu⟩
    · cases hfind
      -- only linked: the row stays as it is
      refine ⟨h.db.mono (Nat.le_succ _), UsersStep.refl _ _, ?_⟩
      intro u' hu'
      rw [mem_of_findByEmail hu] at hu'
      cases hu'
      rfl
  · split at hfind
    · cases hfind
    · split at hfind
      · cases hfind
      · next db₁ hins =>
        cases hfind
        -- a new account, without a password
        refine ⟨(h.db.mono (Nat.le_succ _)).insertUser hins (Nat.lt_succ_self _) fun _ => rfl,
          UsersStep.insertUser hins (Nat.le_refl _), ?_⟩
        intro u hu
        rw [(insertUser_eq_some hins).2.1, KeyMap.get_set_self] at hu
        cases hu
        rfl

theorem Inv.oauthSignIn {email profile newId draw : String} {emailVerified allow : Bool} (h : Inv s)
    (hsign : Accounts.oauthSignIn cfg s email emailVerified profile allow newId draw = .ok s') :
    Inv s' := by
  unfold Accounts.oauthSignIn at hsign
  split at hsign
  · cases hsign
  · split at hsign
    · cases hsign
    · next hfind =>
      split at hsign
      · cases hsign
      · next hcreate =>
        cases hsign
        obtain ⟨hok, hstep, hversion⟩ := findOrCreateUser_eq_ok h hfind
        obtain ⟨hdb, husers⟩ := hok.createSession hcreate hversion
        refine h.of_step hdb ?_ (Nat.le_succ _) fun _ hc => hc
        dsimp only
        rw [husers]
        exact hstep

theorem Inv.step (h : Inv s) (hcrossed : Uncrossed s l) (hstep : step cfg s l = some s') : Inv s' := by
  -- a step that deletes sessions leaves the users alone
  have hdelete : ∀ p, Inv { s with db := s.db.deleteSessions p } := fun p =>
    h.of_step (h.db.deleteSessions p) (UsersStep.refl _ _) (Nat.le_refl _) fun _ hc => hc
  cases l with
  | tick seconds =>
    cases hstep
    exact ⟨h.db, h.changes⟩
  | register email password profile allow userId salt =>
    exact h.register (Except.toOption_eq_some_iff.mp hstep)
  | loginRead email password => exact h.loginRead (Except.toOption_eq_some_iff.mp hstep)
  | loginWrite login draw =>
    simp only [Accounts.step] at hstep
    split at hstep
    · exact h.loginWrite hcrossed (Except.toOption_eq_some_iff.mp hstep)
    · cases hstep
  | authenticate bearer =>
    obtain ⟨ctx, -, rfl⟩ := Option.map_eq_some_iff.mp hstep
    exact ⟨h.db, h.changes⟩
  | slideExpiry ctx =>
    simp only [Accounts.step] at hstep
    split at hstep
    · cases hstep
      exact h.of_step (h.db.slideExpiry _ _) (UsersStep.refl _ _) (Nat.le_refl _) fun _ hc => hc
    · cases hstep
  | logout ctx =>
    simp only [Accounts.step] at hstep
    split at hstep
    · cases hstep
      exact hdelete _
    · cases hstep
  | logoutAll ctx =>
    simp only [Accounts.step] at hstep
    split at hstep
    · cases hstep
      exact hdelete _
    · cases hstep
  | mePatch ctx profile =>
    simp only [Accounts.step] at hstep
    split at hstep
    · exact h.mePatch (Except.toOption_eq_some_iff.mp hstep)
    · cases hstep
  | passwordRead ctx currentPassword newPassword salt =>
    simp only [Accounts.step] at hstep
    split at hstep
    · exact h.passwordRead (Except.toOption_eq_some_iff.mp hstep)
    · cases hstep
  | passwordWrite change draw =>
    simp only [Accounts.step] at hstep
    split at hstep
    · next hmem => exact h.passwordWrite hmem hcrossed (Except.toOption_eq_some_iff.mp hstep)
    · cases hstep
  | oauthSignIn email emailVerified profile allowSelfRegister newId draw =>
    exact h.oauthSignIn (Except.toOption_eq_some_iff.mp hstep)
  | createUser email password profile verified userId salt =>
    exact h.createUser (Except.toOption_eq_some_iff.mp hstep)
  | updateUser userId email password profile verified salt =>
    exact h.updateUser (Except.toOption_eq_some_iff.mp hstep)
  | deleteUser userId =>
    have hstep := Except.toOption_eq_some_iff.mp hstep
    unfold deleteUser at hstep
    split at hstep
    · cases hstep
      exact h.of_step (h.db.deleteUser userId) (UsersStep.deleteUser _ _ _) (Nat.le_refl _)
        fun _ hc => hc
    · cases hstep
  | revokeSessions userId =>
    cases hstep
    exact hdelete _

/-! ### Whole runs -/

/-- Nobody gets in with a password. -/
theorem loginRead_of_claimed {email password id : String} {u : User} (h : Inv s)
    (hfind : s.db.findByEmail (trimmed email) = some (id, u)) (hclaimed : u.claimed = true) :
    Accounts.loginRead cfg s email password = .error invalidCredentials := by
  have hsentinel : isOauthOnly u.passwordHash = true :=
    beq_iff_eq.mpr (h.db.claimed id u (mem_of_findByEmail hfind) hclaimed)
  unfold Accounts.loginRead
  rw [hfind]
  exact if_pos hsentinel

/-- When no login and no change of a password ends on an account that was reset in between, every session
of a user is from after the last reset of the account. An account that a sign-in through the provider
has made or claimed has no password until a service key sets one, and no login with its address gets
through. -/
theorem reset_revokes (cfg : Config) (ls : List Label) (s : State)
    (hrun : Transition.run (step cfg) {} ls = some s)
    (huncrossed : Transition.Along (step cfg) Uncrossed {} ls) :
    (∀ hash row u, s.db.sessions.get hash = some row → s.db.users.get row.userId = some u →
        row.version = u.version) ∧
      (∀ id u, s.db.users.get id = some u → u.claimed = true →
        u.passwordHash = oauthOnlySentinel) ∧
      ∀ email password id u, s.db.findByEmail (trimmed email) = some (id, u) → u.claimed = true →
        loginRead cfg s email password = .error invalidCredentials := by
  have hkept : ∀ {s l s'}, Inv s → Uncrossed s l → step cfg s l = some s' → Inv s' :=
    fun h huncrossed hstep => h.step huncrossed hstep
  have hinv : Inv s := Transition.Along.invariant hkept inv_start huncrossed hrun
  exact ⟨hinv.db.current, hinv.db.claimed, fun _ _ _ _ hfind hclaimed =>
    loginRead_of_claimed hinv hfind hclaimed⟩

/-- The hash of a password is the password, between marks that the sentinel does not have. -/
def plainConfig : Config where
  hashPassword := fun password salt => "#" ++ password ++ salt
  verifyPassword := fun password hash => hash == "#" ++ password
  hashToken := id

/-- Somebody registers an address and has a session when its owner signs in through the provider. -/
def squatterClaimed : List Label :=
  [.register "a@b.co" "squatter" none true "u-1" "", .loginRead "a@b.co" "squatter",
    .loginWrite ⟨"u-1", 0⟩ "s", .authenticate "drust_user_s",
    .oauthSignIn "A@b.co" true "" false "u-2" "owner"]

theorem reset_revokes_squatter :
    ∃ s, Transition.run (step plainConfig) {} squatterClaimed = some s ∧
      s.db.sessions.keys = ["drust_user_owner"] ∧
      ∀ hash row u, s.db.sessions.get hash = some row → s.db.users.get row.userId = some u →
        row.version = u.version := by
  have hsome : (Transition.run (step plainConfig) {} squatterClaimed).map
      (fun s => s.db.sessions.keys) = some ["drust_user_owner"] := by decide +kernel
  obtain ⟨s, hrun, hkeys⟩ := Option.map_eq_some_iff.mp hsome
  exact ⟨s, hrun, hkeys,
    (reset_revokes plainConfig squatterClaimed s hrun (by decide +kernel)).1⟩

/-- The squatter is changing the password while the account is claimed. -/
def changeCrossesClaim : List Label :=
  squatterClaimed.dropLast ++
    [.passwordRead ⟨"u-1", "drust_user_s"⟩ "squatter" "squatter2" "",
      .oauthSignIn "A@b.co" true "" false "u-2" "owner",
      .passwordWrite ⟨"u-1", "#squatter2", 0⟩ "again"]

/-- The change deletes the session of the owner, and the account has the password of the squatter. -/
theorem claim_undone :
    (Transition.run (step plainConfig) {} changeCrossesClaim).map (fun s =>
      (s.db.sessions.keys, (s.db.users.get "u-1").map fun u => (u.passwordHash, u.verified))) =
        some (["drust_user_again"], some ("#squatter2", true)) := by
  decide +kernel

end Accounts

end Drust
