import Drust.Lib.EState
import Drust.Mgmt.Tenants

/-!
# When creating a tenant is all or nothing

A call that is refused by its checks has written nothing. After that it stops at the first
statement or file operation that fails, and nothing that it did before is undone: no
transaction is open. So a call that fails leaves everything as it was exactly when nothing
that it did before had an effect (`FailsEarly`).
* On a free id the row of the tenant is the first thing that is written. If anything after it
  fails, the row stays, without the tokens.
* On the id of a soft-deleted tenant, the tokens, the quota requests and the row of the old
  tenant are deleted first. A failure after that has lost them.

A call that answers ok has made the row and the two tokens, always.
-/

namespace Drust

namespace Tenants

variable {f : Faults} {hashToken : String → String} {inp : MakeInput} {w w' : World}

/-! ### Statements -/

theorem attempt_eq_ok_iff {α : Type} {step : Step} {result : Option α} {a : α} :
    attempt f step result = .ok a ↔ f.fails step = false ∧ result = some a := by
  unfold attempt
  cases f.fails step with
  | true => simp
  | false => cases result <;> simp

theorem attempt_eq_error {α : Type} {step : Step} {result : Option α}
    (h : f.fails step = true ∨ result = none) :
    attempt f step result = .error (.failed step) := by
  unfold attempt
  obtain h | rfl := h
  · rw [if_pos h]
  · exact ite_self _

theorem statement_of_error {step : Step} {run : MetaDb → Option MetaDb}
    (h : f.fails step = true ∨ run w.db = none) :
    statement f step run w = .error (.failed step) w := by
  rw [statement, attempt_eq_error h]

theorem statement_of_some {step : Step} {run : MetaDb → Option MetaDb} {db : MetaDb}
    (h : f.fails step = false) (hrun : run w.db = some db) :
    statement f step run w = .ok () { w with db := db } := by
  rw [statement, attempt_eq_ok_iff.mpr ⟨h, hrun⟩]

theorem onDir_of_fails {step : Step} {run : Option TenantDir → Option TenantDir}
    (h : f.fails step = true) :
    onDir f step run w = .error (.failed step) { w with dir := f.leaves step } := by
  rw [onDir, if_pos h]

theorem onDir_of_ok {step : Step} {run : Option TenantDir → Option TenantDir}
    (h : f.fails step = false) : onDir f step run w = .ok () { w with dir := run w.dir } := by
  rw [onDir, if_neg (by rw [h]; exact Bool.false_ne_true)]

theorem insertToken_eq_some {db db' : MetaDb} {tok : TokenRow} (h : db.insertToken tok = some db') :
    db'.tenants = db.tenants ∧ db'.tokens = db.tokens ++ [tok] := by
  rw [MetaDb.insertToken] at h
  split at h
  · obtain rfl := Option.some.inj h
    exact ⟨rfl, rfl⟩
  · cases h

theorem insertToken_isSome_iff {db : MetaDb} {tok : TokenRow} :
    (∃ db', db.insertToken tok = some db') ↔ tok.tokenHash ∉ db.tokens.map TokenRow.tokenHash ∧
      ∃ row ∈ db.tenants, row.id = tok.tenantId := by
  rw [MetaDb.insertToken]
  split
  · next h => exact ⟨fun _ => h, fun _ => ⟨_, rfl⟩⟩
  · next h => exact ⟨fun ⟨_, hsome⟩ => (nomatch hsome), fun h' => absurd h' h⟩

theorem insertTenant_eq_some {db db' : MetaDb} {row : TenantRow}
    (h : db.insertTenant row = some db') :
    db'.tenants = db.tenants ++ [row] ∧ db'.tokens = db.tokens := by
  rw [MetaDb.insertTenant] at h
  split at h
  · obtain rfl := Option.some.inj h
    exact ⟨rfl, rfl⟩
  · cases h

/-! ### After the row of the tenant -/

/-- A computation that only works on the directory: it succeeds exactly when none of its steps
fails. -/
def OnDir (f : Faults) (x : M Unit) (steps : List Step) : Prop :=
  ∀ w, (∃ dir, x w = .ok () { w with dir := dir } ∧ ∀ step ∈ steps, f.fails step = false) ∨
    ∃ e dir, x w = .error e { w with dir := dir } ∧ ∃ step ∈ steps, f.fails step = true

theorem OnDir.single (step : Step) (run : Option TenantDir → Option TenantDir) :
    OnDir f (onDir f step run) [step] := by
  intro w
  cases h : f.fails step with
  | true => exact .inr ⟨_, _, onDir_of_fails h, step, List.mem_singleton_self step, h⟩
  | false =>
    exact .inl ⟨_, onDir_of_ok h, fun step' hstep' => by rw [List.mem_singleton.mp hstep', h]⟩

theorem OnDir.bind {x y : M Unit} {steps steps' : List Step} (hx : OnDir f x steps)
    (hy : OnDir f y steps') : OnDir f (x >>= fun _ => y) (steps ++ steps') := by
  intro w
  obtain ⟨dir, hok, hsteps⟩ | ⟨e, dir, herr, step, hstep, hfails⟩ := hx w
  · obtain ⟨dir', hok', hsteps'⟩ | ⟨e, dir', herr, step, hstep, hfails⟩ := hy { w with dir := dir }
    · refine .inl ⟨dir', (EStateM.bind_of_ok hok).trans hok', ?_⟩
      exact List.forall_mem_append.mpr ⟨hsteps, hsteps'⟩
    · exact .inr ⟨e, dir', (EStateM.bind_of_ok hok).trans herr, step,
        List.mem_append_right _ hstep, hfails⟩
  · exact .inr ⟨e, dir, EStateM.bind_of_error herr, step, List.mem_append_left _ hstep, hfails⟩

def dirSteps : List Step := [.createDir, .openWrite, .seedRootPolicy, .writeMetaJson]

theorem makeDir_onDir (inp : MakeInput) : OnDir f (makeDir f inp) dirSteps :=
  ((OnDir.single _ _).bind (OnDir.single _ _)).bind ((OnDir.single _ _).bind (OnDir.single _ _))

/-- Nothing fails after the row of the tenant, and the two tokens are new among those of the
other tenants. -/
structure Provisions (f : Faults) (hashToken : String → String) (tokens : List TokenRow)
    (inp : MakeInput) : Prop where
  dir : ∀ step ∈ dirSteps, f.fails step = false
  service : f.fails .insertService = false
  anon : f.fails .insertAnon = false
  serviceNew : hashToken inp.serviceToken ∉ tokens.map TokenRow.tokenHash
  anonNew : hashToken inp.anonToken ∉ tokens.map TokenRow.tokenHash
  distinct : hashToken inp.anonToken ≠ hashToken inp.serviceToken

/-- A token is written, or ends the call. -/
theorem statement_insertToken (step : Step) (tok : TokenRow) (w : World)
    (hrow : ∃ row ∈ w.db.tenants, row.id = tok.tenantId) :
    (∃ db, statement f step (fun db => db.insertToken tok) w = .ok () { w with db := db } ∧
        db.tenants = w.db.tenants ∧ db.tokens = w.db.tokens ++ [tok] ∧ f.fails step = false ∧
        tok.tokenHash ∉ w.db.tokens.map TokenRow.tokenHash) ∨
      (statement f step (fun db => db.insertToken tok) w = .error (.failed step) w ∧
        (f.fails step = true ∨ tok.tokenHash ∈ w.db.tokens.map TokenRow.tokenHash)) := by
  cases hfails : f.fails step with
  | true => exact .inr ⟨statement_of_error (.inl hfails), .inl rfl⟩
  | false =>
    by_cases hhash : tok.tokenHash ∈ w.db.tokens.map TokenRow.tokenHash
    · refine .inr ⟨statement_of_error (.inr ?_), .inr hhash⟩
      exact dif_neg fun h => h.1 hhash
    · obtain ⟨db, hdb⟩ := insertToken_isSome_iff.mpr ⟨hhash, hrow⟩
      obtain ⟨htenants, htokens⟩ := insertToken_eq_some hdb
      exact .inl ⟨db, statement_of_some hfails hdb, htenants, htokens, rfl, hhash⟩

/-- What follows the row of the tenant gives it its two tokens, or fails. The row stays. -/
theorem provision_spec (f : Faults) (hashToken : String → String) (w : World) (hrow : ∃ row ∈ w.db.tenants, row.id = inp.id) :
    let out := (makeDir f inp >>= fun _ => issueTokens f hashToken inp) w
    (∃ r w', out = .ok r w' ∧ w'.db.tenants = w.db.tenants ∧
        w'.db.tokens = w.db.tokens ++ [inp.serviceRow hashToken, inp.anonRow hashToken] ∧
        Provisions f hashToken w.db.tokens inp) ∨
      ∃ e w', out = .error e w' ∧ w'.db.tenants = w.db.tenants ∧
        ¬ Provisions f hashToken w.db.tokens inp := by
  intro out
  obtain ⟨dir, hdir, hsteps⟩ | ⟨e, dir, herr, step, hstep, hfails⟩ := makeDir_onDir inp w
  case inr =>
    refine .inr ⟨e, _, EStateM.bind_of_error herr, rfl, fun h => ?_⟩
    rw [h.dir step hstep] at hfails
    cases hfails
  have hout : out = issueTokens f hashToken inp { w with dir := dir } := EStateM.bind_of_ok hdir
  obtain ⟨db, hservice, htenants, htokens, hserviceOk, hserviceNew⟩ | ⟨herr, hwhy⟩ :=
    statement_insertToken .insertService (inp.serviceRow hashToken) { w with dir := dir } hrow
  case inr =>
    refine .inr ⟨_, _, hout.trans (EStateM.bind_of_error herr), rfl, fun h => ?_⟩
    obtain hfails | hused := hwhy
    · rw [h.service] at hfails
      cases hfails
    · exact h.serviceNew hused
  have hissue : issueTokens f hashToken inp { w with dir := dir } = _ :=
    EStateM.bind_of_ok hservice
  obtain ⟨db', hanon, htenants', htokens', hanonOk, hanonNew⟩ | ⟨herr, hwhy⟩ :=
    statement_insertToken .insertAnon (inp.anonRow hashToken) { w with dir := dir, db := db }
      (by rw [htenants]; exact hrow)
  case inr =>
    refine .inr ⟨_, _, hout.trans (hissue.trans (EStateM.bind_of_error herr)), htenants, fun h => ?_⟩
    obtain hfails | hused := hwhy
    · rw [h.anon] at hfails
      cases hfails
    · -- the hash is that of an older token, or that of the service token
      rw [htokens, List.map_append, List.mem_append] at hused
      obtain hold | hsame := hused
      · exact h.anonNew hold
      · exact h.distinct (List.mem_singleton.mp hsame)
  refine .inl ⟨_, _, hout.trans (hissue.trans (EStateM.bind_of_ok hanon)),
    htenants'.trans htenants, ?_, hsteps, hserviceOk, hanonOk, hserviceNew, ?_, ?_⟩
  · rw [htokens', htokens, List.append_assoc]
    rfl
  · intro hold
    refine hanonNew ?_
    rw [htokens, List.map_append]
    exact List.mem_append_left _ hold
  · intro hsame
    refine hanonNew ?_
    rw [htokens, List.map_append]
    exact List.mem_append_right _ (List.mem_singleton.mpr hsame)

/-! ### Before the row of the tenant -/

theorem mem_admins_of_lookup {default : Int} {db : MetaDb} {admin : Int} {r : String × Int}
    (h : lookupAdminCap default db admin = some r) : admin ∈ db.admins.map AdminRow.id := by
  obtain ⟨a, ha, -⟩ := Option.map_eq_some_iff.mp h
  have hid := List.find?_some ha
  rw [beq_iff_eq] at hid
  exact List.mem_map.mpr ⟨a, List.mem_of_find?_eq_some ha, hid⟩

/-- A caller who is no admin has no allowance. -/
theorem mem_admins_of_mayCreate {default : Int} {db : MetaDb} {admin : Int} {role : String} {cap : Int}
    (hfound : (lookupAdminCap default db admin).getD ("member", 0) = (role, cap))
    (h : mayCreateTenant role (ownedTenantCount db admin) cap = true) :
    admin ∈ db.admins.map AdminRow.id := by
  cases hlookup : lookupAdminCap default db admin with
  | some r => exact mem_admins_of_lookup hlookup
  | none =>
    rw [hlookup] at hfound
    obtain ⟨rfl, rfl⟩ := Prod.mk.inj hfound
    have hnone : ¬ ownedTenantCount db admin < 0 := by
      rw [ownedTenantCount]
      omega
    rw [mayCreateTenant, decide_eq_false hnone] at h
    exact absurd h (by decide)

/-- The row that the id has: none on a free id, and one that was soft-deleted otherwise. -/
theorem checkTenant_eq_ok {defaultCap : Int} {branch : Branch}
    (h : checkTenant f defaultCap w inp = .ok branch) :
    inp.ownerAdminId ∈ w.db.admins.map AdminRow.id ∧
      match branch with
      | .fresh => inp.id ∉ w.db.tenants.map TenantRow.id
      | .recycle => ∃ row ∈ w.db.tenants, row.id = inp.id ∧ row.deletedAt ≠ none := by
  obtain ⟨owned, howned, h⟩ := Except.bind_eq_ok_iff.mp h
  obtain ⟨found, hfound, h⟩ := Except.bind_eq_ok_iff.mp h
  obtain rfl := Option.some.inj (attempt_eq_ok_iff.mp howned).2
  obtain rfl := Option.some.inj (attempt_eq_ok_iff.mp hfound).2
  rcases hpair : (lookupAdminCap defaultCap w.db inp.ownerAdminId).getD ("member", 0) with ⟨role, cap⟩
  simp only [hpair] at h
  split at h
  · cases h
  · next hmay =>
    refine ⟨mem_admins_of_mayCreate hpair (by simpa using hmay), ?_⟩
    split at h
    · cases h
    · obtain ⟨existing, hexisting, h⟩ := Except.bind_eq_ok_iff.mp h
      obtain rfl := Option.some.inj (attempt_eq_ok_iff.mp hexisting).2
      cases hfind : w.db.tenants.find? fun row => row.id == inp.id with
      | none =>
        simp only [hfind] at h
        obtain rfl := Except.ok.inj h
        simpa using hfind
      | some row =>
        simp only [hfind] at h
        have hid := List.find?_some hfind
        rw [beq_iff_eq] at hid
        split at h
        · cases h
        · next hdeleted =>
          split at h
          · cases h
          · obtain rfl := Except.ok.inj h
            exact ⟨row, List.mem_of_find?_eq_some hfind, hid, by simpa using hdeleted⟩

/-! ### Deleting what is left of a tenant -/

def HasNoTokens (w : World) (id : String) : Prop :=
  ∀ tok ∈ w.db.tokens, tok.tenantId ≠ id

def HasNoRequests (w : World) (id : String) : Prop :=
  ∀ r ∈ w.db.quotaRequests, r.tenantId ≠ id

theorem deleteTokens_eq_self_iff {id : String} : w.db.deleteTokens id = w.db ↔ HasNoTokens w id := by
  have hfilter : (w.db.tokens.filter fun tok => tok.tenantId != id) = w.db.tokens ↔
      HasNoTokens w id := by
    simp [HasNoTokens, List.filter_eq_self]
  rw [← hfilter]
  exact ⟨fun h => congrArg MetaDb.tokens h, fun h => MetaDb.ext rfl rfl h rfl⟩

/-- The two deletions change nothing exactly when there was nothing to delete. -/
theorem deleteRequests_eq_self_iff {id : String} :
    (w.db.deleteTokens id).deleteRequestsForTenant id = w.db ↔
      HasNoTokens w id ∧ HasNoRequests w id := by
  have hfilter : (w.db.quotaRequests.filter fun r => r.tenantId != id) = w.db.quotaRequests ↔
      HasNoRequests w id := by
    simp [HasNoRequests, List.filter_eq_self]
  rw [← hfilter, ← deleteTokens_eq_self_iff]
  constructor
  · intro h
    have htokens : (w.db.deleteTokens id).tokens = w.db.tokens := congrArg (fun db => db.tokens) h
    exact ⟨MetaDb.ext rfl rfl htokens rfl, congrArg (fun db => db.quotaRequests) h⟩
  · rintro ⟨htokens, hrequests⟩
    have htokens : (w.db.deleteTokens id).tokens = w.db.tokens :=
      congrArg (fun db => db.tokens) htokens
    exact MetaDb.ext rfl rfl htokens hrequests

theorem withDb_eq_self_iff {db : MetaDb} : ({ w with db := db } : World) = w ↔ db = w.db :=
  ⟨fun h => congrArg World.db h, fun h => by rw [h]⟩

theorem deleteTenant_of_noTokens {db : MetaDb} {id : String}
    (h : ∀ tok ∈ db.tokens, tok.tenantId ≠ id) :
    ∃ db', db.deleteTenant id = some db' ∧ db'.admins = db.admins ∧ db'.tokens = db.tokens ∧
      db'.tenants = db.tenants.filter fun row => row.id != id :=
  ⟨_, dif_pos h, rfl, rfl, rfl⟩

theorem removeDirAll_eq (f : Faults) (w : World) :
    ∃ dir, removeDirAll f w = .ok () { w with dir := dir } := by
  unfold removeDirAll
  split
  · exact ⟨w.dir, rfl⟩
  · split
    · exact ⟨f.leaves .removeDir, rfl⟩
    · exact ⟨none, rfl⟩

def purgeSteps : List Step := [.deleteTokens, .deleteRequests, .deleteTenant]

/-- No deletion that comes before the first one that fails has an effect. -/
def PurgeHarmless (f : Faults) (w : World) (id : String) : Prop :=
  f.fails .deleteTokens = true ∨
    (f.fails .deleteRequests = true ∧ HasNoTokens w id) ∨
    (f.fails .deleteTenant = true ∧ HasNoTokens w id ∧ HasNoRequests w id)

/-- What is left of the tenant is deleted, or the first deletion that fails ends the call. -/
theorem purge_spec (f : Faults) (w : World) (id : String) :
    (∃ w', purge f id w = .ok () w' ∧ (∀ step ∈ purgeSteps, f.fails step = false) ∧
        w'.db.admins = w.db.admins ∧ w'.db.tokens = (w.db.deleteTokens id).tokens ∧
        w'.db.tenants = w.db.tenants.filter fun row => row.id != id) ∨
      ∃ e w', purge f id w = .error e w' ∧ (∃ step ∈ purgeSteps, f.fails step = true) ∧
        (w' = w ↔ PurgeHarmless f w id) := by
  cases htokens : f.fails .deleteTokens with
  | true =>
    refine .inr ⟨_, w, EStateM.bind_of_error (statement_of_error (.inl htokens)), ?_, ?_⟩
    · exact ⟨.deleteTokens, by decide, htokens⟩
    · exact ⟨fun _ => .inl htokens, fun _ => rfl⟩
  | false =>
  have hrun₁ : statement f .deleteTokens (fun db => some (db.deleteTokens id)) w
      = .ok () { w with db := w.db.deleteTokens id } := statement_of_some htokens rfl
  cases hrequests : f.fails .deleteRequests with
  | true =>
    refine .inr ⟨_, { w with db := w.db.deleteTokens id }, (EStateM.bind_of_ok hrun₁).trans
      (EStateM.bind_of_error (statement_of_error (.inl hrequests))), ?_, ?_⟩
    · exact ⟨.deleteRequests, by decide, hrequests⟩
    · -- the tokens are gone, if there were any
      rw [withDb_eq_self_iff, deleteTokens_eq_self_iff, PurgeHarmless, htokens, hrequests]
      constructor
      · exact fun hnone => .inr (.inl ⟨rfl, hnone⟩)
      · rintro (h | ⟨-, hnone⟩ | ⟨-, hnone, -⟩)
        · cases h
        · exact hnone
        · exact hnone
  | false =>
  have hrun₂ : statement f .deleteRequests (fun db => some (db.deleteRequestsForTenant id))
      { w with db := w.db.deleteTokens id }
      = .ok () { w with db := (w.db.deleteTokens id).deleteRequestsForTenant id } :=
    statement_of_some hrequests rfl
  cases htenant : f.fails .deleteTenant with
  | true =>
    refine .inr ⟨_, { w with db := (w.db.deleteTokens id).deleteRequestsForTenant id },
      (EStateM.bind_of_ok hrun₁).trans ((EStateM.bind_of_ok hrun₂).trans
        (EStateM.bind_of_error (statement_of_error (.inl htenant)))), ?_, ?_⟩
    · exact ⟨.deleteTenant, by decide, htenant⟩
    · rw [withDb_eq_self_iff, deleteRequests_eq_self_iff, PurgeHarmless, htokens, hrequests, htenant]
      simp
  | false =>
  have hnone : ∀ tok ∈ ((w.db.deleteTokens id).deleteRequestsForTenant id).tokens,
      tok.tenantId ≠ id := fun tok htok => by simpa using List.of_mem_filter htok
  obtain ⟨db, hdelete, hadmins, hdbTokens, htenants⟩ := deleteTenant_of_noTokens hnone
  have hrun₃ : statement f .deleteTenant (fun db => db.deleteTenant id)
      { w with db := (w.db.deleteTokens id).deleteRequestsForTenant id }
      = .ok () { w with db := db } := statement_of_some htenant hdelete
  obtain ⟨dir, hdir⟩ := removeDirAll_eq f { w with db := db }
  refine .inl ⟨_, (EStateM.bind_of_ok hrun₁).trans ((EStateM.bind_of_ok hrun₂).trans
    ((EStateM.bind_of_ok hrun₃).trans hdir)), ?_, hadmins, hdbTokens, htenants⟩
  simp [purgeSteps, htokens, hrequests, htenant]

/-! ### All or nothing -/

/-- What a call that answers ok has made: the row of the id is that of the caller, and its
tokens are one for the service and one for anonymous callers. -/
structure Created (hashToken : String → String) (inp : MakeInput) (w : World) : Prop where
  tenant : (w.db.tenants.filter fun row => row.id == inp.id) = [inp.tenantRow]
  tokens : (w.db.tokens.filter fun tok => tok.tenantId == inp.id)
    = [inp.serviceRow hashToken, inp.anonRow hashToken]

/-- An error leaves everything as it was, and ok means that the tenant is made. -/
def AllOrNothing (hashToken : String → String) (inp : MakeInput) (w : World) :
    EStateM.Result MakeError World CreatedResp → Prop
  | .ok _ w' => Created hashToken inp w'
  | .error _ w' => w' = w

/-- What comes before the first failure has no effect, or nothing fails. -/
def FailsEarly (f : Faults) (hashToken : String → String) (w : World) (inp : MakeInput) :
    Branch → Prop
  | .fresh => f.fails .insertTenant = true ∨ Provisions f hashToken w.db.tokens inp
  | .recycle => PurgeHarmless f w inp.id ∨ ((∀ step ∈ purgeSteps, f.fails step = false) ∧
      f.fails .insertTenant = false ∧ Provisions f hashToken (w.db.deleteTokens inp.id).tokens inp)

/-- The row of the tenant is written, and what follows makes the tenant or leaves the row. -/
theorem insert_spec (hashToken : String → String) (hfails : f.fails .insertTenant = false)
    (hfresh : inp.id ∉ w.db.tenants.map TenantRow.id)
    (howner : inp.ownerAdminId ∈ w.db.admins.map AdminRow.id) :
    let out := (statement f .insertTenant (fun db => db.insertTenant inp.tenantRow) >>= fun _ =>
      makeDir f inp >>= fun _ => issueTokens f hashToken inp) w
    (∃ r w', out = .ok r w' ∧ Created hashToken inp w' ∧ Provisions f hashToken w.db.tokens inp) ∨
      ∃ e w', out = .error e w' ∧ inp.tenantRow ∈ w'.db.tenants ∧
        ¬ Provisions f hashToken w.db.tokens inp := by
  intro out
  have hinsert : ∃ db, w.db.insertTenant inp.tenantRow = some db :=
    ⟨_, dif_pos ⟨hfresh, fun owner h => Option.some.inj h ▸ howner⟩⟩
  obtain ⟨db, hdb⟩ := hinsert
  obtain ⟨htenants, htokens⟩ := insertTenant_eq_some hdb
  have hout : out = _ := EStateM.bind_of_ok (statement_of_some hfails hdb)
  have hmem : inp.tenantRow ∈ db.tenants := by
    rw [htenants]
    exact List.mem_append_right _ (List.mem_singleton_self _)
  obtain ⟨r, w', hok, hrows, htoks, hprovisions⟩ | ⟨e, w', herr, hrows, hprovisions⟩ :=
    provision_spec f hashToken { w with db := db } ⟨_, hmem, rfl⟩
  · refine .inl ⟨r, w', hout.trans hok, ⟨?_, ?_⟩, htokens ▸ hprovisions⟩
    · have hnone : (w.db.tenants.filter fun row => row.id == inp.id) = [] :=
        List.filter_eq_nil_iff.mpr fun row hrow hid =>
          hfresh (List.mem_map.mpr ⟨row, hrow, beq_iff_eq.mp hid⟩)
      rw [hrows, htenants, List.filter_append, hnone]
      simp [MakeInput.tenantRow]
    · -- a token of the id would reference a row of it
      have hnone : (w.db.tokens.filter fun tok => tok.tenantId == inp.id) = [] := by
        refine List.filter_eq_nil_iff.mpr fun tok htok hid => ?_
        obtain ⟨row, hrow, hrowId⟩ := w.db.tokenTenants tok htok
        exact hfresh (List.mem_map.mpr ⟨row, hrow, hrowId.trans (beq_iff_eq.mp hid)⟩)
      rw [htoks, htokens, List.filter_append, hnone]
      simp [MakeInput.serviceRow, MakeInput.anonRow]
  · exact .inr ⟨e, w', hout.trans herr, hrows ▸ hmem, htokens ▸ hprovisions⟩

/-- The rest of a call on a free id. -/
theorem fresh_iff (hfresh : inp.id ∉ w.db.tenants.map TenantRow.id)
    (howner : inp.ownerAdminId ∈ w.db.admins.map AdminRow.id) :
    AllOrNothing hashToken inp w
        ((statement f .insertTenant (fun db => db.insertTenant inp.tenantRow) >>= fun _ =>
          makeDir f inp >>= fun _ => issueTokens f hashToken inp) w) ↔
      FailsEarly f hashToken w inp .fresh := by
  cases hfails : f.fails .insertTenant with
  | true =>
    rw [EStateM.bind_of_error (statement_of_error (.inl hfails))]
    exact ⟨fun _ => .inl hfails, fun _ => rfl⟩
  | false =>
    obtain ⟨r, w', hok, hcreated, hprovisions⟩ | ⟨e, w', herr, hrow, hprovisions⟩ :=
      insert_spec hashToken hfails hfresh howner
    · rw [hok]
      exact ⟨fun _ => .inr hprovisions, fun _ => hcreated⟩
    · rw [herr]
      constructor
      · rintro rfl
        exact absurd (List.mem_map_of_mem hrow) hfresh
      · rintro (h | h)
        · rw [hfails] at h
          cases h
        · exact absurd h hprovisions

/-- The rest of a call on the id of a soft-deleted tenant. -/
theorem recycle_iff {row : TenantRow} (hrow : row ∈ w.db.tenants) (hid : row.id = inp.id)
    (hdeleted : row.deletedAt ≠ none) (howner : inp.ownerAdminId ∈ w.db.admins.map AdminRow.id) :
    AllOrNothing hashToken inp w ((purge f inp.id >>= fun _ =>
        statement f .insertTenant (fun db => db.insertTenant inp.tenantRow) >>= fun _ =>
          makeDir f inp >>= fun _ => issueTokens f hashToken inp) w) ↔
      FailsEarly f hashToken w inp .recycle := by
  obtain ⟨w₁, hok, hsteps, hadmins, htokens, htenants⟩ | ⟨e, w₁, herr, ⟨step, hstep, hfails⟩, hsame⟩ :=
    purge_spec f w inp.id
  case inr =>
    rw [EStateM.bind_of_error herr]
    refine hsame.trans ⟨.inl, ?_⟩
    rintro (h | ⟨hall, -⟩)
    · exact h
    · rw [hall step hstep] at hfails
      cases hfails
  rw [EStateM.bind_of_ok hok]
  have hharmful : ¬ PurgeHarmless f w inp.id := by
    rintro (h | ⟨h, -⟩ | ⟨h, -⟩)
    · rw [hsteps .deleteTokens (by decide)] at h
      cases h
    · rw [hsteps .deleteRequests (by decide)] at h
      cases h
    · rw [hsteps .deleteTenant (by decide)] at h
      cases h
  -- the row of the old tenant is gone
  have hfresh : inp.id ∉ w₁.db.tenants.map TenantRow.id := by
    rw [htenants]
    intro hmem
    obtain ⟨row', hrow', hid'⟩ := List.mem_map.mp hmem
    simpa [hid'] using List.of_mem_filter hrow'
  cases hfails : f.fails .insertTenant with
  | true =>
    rw [EStateM.bind_of_error (statement_of_error (.inl hfails))]
    constructor
    · rintro rfl
      exact absurd (List.mem_map.mpr ⟨row, hrow, hid⟩) hfresh
    · rintro (h | ⟨-, h, -⟩)
      · exact absurd h hharmful
      · rw [hfails] at h
        cases h
  | false =>
    obtain ⟨r, w', hok', hcreated, hprovisions⟩ | ⟨e, w', herr, hnew, hprovisions⟩ :=
      insert_spec hashToken hfails hfresh (hadmins ▸ howner)
    · rw [hok']
      exact ⟨fun _ => .inr ⟨hsteps, hfails, htokens ▸ hprovisions⟩, fun _ => hcreated⟩
    · rw [herr]
      constructor
      · -- two rows of one id would be the same, but only one of them is deleted
        rintro rfl
        have heq : row = inp.tenantRow :=
          List.inj_on_of_nodup_map w'.db.tenantIds hrow hnew hid
        exact absurd (heq ▸ rfl) hdeleted
      · rintro (h | ⟨-, -, h⟩)
        · exact absurd h hharmful
        · exact absurd (htokens ▸ h) hprovisions

/-- Creating a tenant is all or nothing exactly when the call is refused by its checks, or
what comes before the first failure has no effect, or nothing fails. For every state of the
tables, every caller and every pattern of failures. -/
theorem makeTenantInner_allOrNothing_iff (f : Faults) (defaultCap : Int)
    (hashToken : String → String) (inp : MakeInput) (w : World) :
    AllOrNothing hashToken inp w (makeTenantInner f defaultCap hashToken inp w) ↔
      ∀ branch, checkTenant f defaultCap w inp = .ok branch → FailsEarly f hashToken w inp branch := by
  cases hcheck : checkTenant f defaultCap w inp with
  | error e =>
    have hchecked : checked f defaultCap inp w = .error e w := by rw [checked, hcheck]
    have hout : makeTenantInner f defaultCap hashToken inp w = .error e w :=
      EStateM.bind_of_error hchecked
    rw [hout]
    refine ⟨fun _ branch h => ?_, fun _ => rfl⟩
    cases h
  | ok branch =>
    have hchecked : checked f defaultCap inp w = .ok branch w := by rw [checked, hcheck]
    have hforall : (∀ branch', (.ok branch : Except MakeError Branch) = .ok branch' →
        FailsEarly f hashToken w inp branch') ↔ FailsEarly f hashToken w inp branch :=
      ⟨fun h => h branch rfl, fun h branch' heq => Except.ok.inj heq ▸ h⟩
    rw [hforall, makeTenantInner, EStateM.bind_of_ok hchecked]
    cases branch with
    | fresh =>
      obtain ⟨howner, hfresh⟩ := checkTenant_eq_ok hcheck
      exact fresh_iff hfresh howner
    | recycle =>
      obtain ⟨howner, row, hrow, hid, hdeleted⟩ := checkTenant_eq_ok hcheck
      exact recycle_iff hrow hid hdeleted howner

/-- One member, and no tenant. -/
def oneMember : MetaDb where
  admins := [{ id := 7, role := "member" }]
  tenants := []
  tokens := []
  quotaRequests := []
  tenantIds := List.nodup_nil
  tokenHashes := List.nodup_nil
  tokenTenants _ htok := absurd htok List.not_mem_nil

def shop : MakeInput where
  id := "shop"
  name := "Shop"
  quotaMb := 500
  quotaRows := 1000000
  ownerAdminId := 7
  serviceToken := "s"
  anonToken := "a"
  now := "2026-08-02T00:00:00Z"

/-- The disk is full. -/
def diskFull : Faults where
  fails step := step == .createDir
  leaves _ := none

/-- A call that fails to make the directory answers an error, and its tenant is listed. -/
theorem diskFull_leaves_row : ¬ AllOrNothing id shop { db := oneMember, dir := none }
    (makeTenantInner diskFull 3 id shop { db := oneMember, dir := none }) := by
  intro h
  have htenants : [shop.tenantRow] = [] := congrArg (fun w => w.db.tenants) h
  cases htenants

end Tenants

end Drust
