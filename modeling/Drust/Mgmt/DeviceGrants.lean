import Drust.Mgmt.AdminPlane

/-!
# What an approval grants is given out once

An approved device code stands for the token that was minted with the approval (`outstanding`). As
long as each of them has its token (`Backed`), an approval adds one, a poll that redeems a code
takes one out, a sweep drops some, and nothing else changes them. So what the polls gave out and
what is outstanding is no more than what the approvals granted (`handouts_accounted`): a token is
given to the device that it was minted for, for the admin who approved it, and once.

The row of a device code names its token by its key only. When the admin who approved it is removed
before the command line polls, the token is deleted, and the key may be given to the next token that
is generated. Then the poll answers with that token, whoever has it
(`next_pat_goes_to_the_removed_admins_device`). So the removals of a run must leave no approved code
of the admin behind.
-/

namespace Drust

namespace AdminPlane

/-- The token that an approved code stands for. -/
def grantOf (tokens : RowTable AdminToken) (d : DeviceCode) : Option Grant :=
  if d.status = .approved then
    ((d.mintedTokenId.bind tokens.get).bind AdminToken.plaintext).map fun accessToken =>
      ⟨d.deviceCodeHash, d.adminId, accessToken⟩
  else none

def outstanding (db : AdminMeta) : List Grant :=
  db.deviceCodes.rows.filterMap (grantOf db.adminTokens)

/-- Every approved code has the token that it names, of the admin who approved it. -/
def Backed (db : AdminMeta) : Prop :=
  ∀ d ∈ db.deviceCodes.rows, d.status = .approved →
    ∃ tokenId tok accessToken, d.mintedTokenId = some tokenId ∧
      db.adminTokens.get tokenId = some tok ∧ d.adminId = some tok.adminId ∧
      tok.plaintext = some accessToken

/-- Nobody is removed who approved a code that is not redeemed yet. -/
def LeavesNoGrant (s : State) : Label → Prop
  | .remove _ _ target =>
    ∀ d ∈ s.db.deviceCodes.rows, d.status = .approved → d.adminId ≠ some target
  | _ => True

instance (s : State) (l : Label) : Decidable (LeavesNoGrant s l) := by
  unfold LeavesNoGrant
  split <;> infer_instance

variable {db db' : AdminMeta} {cfg : Config}

/-! ### Tokens that stay -/

/-- The tokens of the approved codes stay, and so do the grants. -/
theorem outstanding_of_keeps (hbacked : Backed db) (hdevices : db'.deviceCodes = db.deviceCodes)
    (hkeeps : ∀ d ∈ db.deviceCodes.rows, d.status = .approved → ∀ i tok, d.mintedTokenId = some i →
      db.adminTokens.get i = some tok → ∃ tok', db'.adminTokens.get i = some tok' ∧
        tok'.adminId = tok.adminId ∧ tok'.plaintext = tok.plaintext) :
    Backed db' ∧ outstanding db' = outstanding db := by
  constructor
  · intro d hd hstatus
    rw [hdevices] at hd
    obtain ⟨i, tok, accessToken, hminted, htok, hadmin, htext⟩ := hbacked d hd hstatus
    obtain ⟨tok', htok', hadmin', htext'⟩ := hkeeps d hd hstatus i tok hminted htok
    exact ⟨i, tok', accessToken, hminted, htok', by rw [hadmin, hadmin'], htext'.trans htext⟩
  · unfold outstanding
    rw [hdevices]
    refine List.filterMap_congr ?_
    intro d hd
    unfold grantOf
    by_cases hstatus : d.status = .approved
    · obtain ⟨i, tok, accessToken, hminted, htok, -, htext⟩ := hbacked d hd hstatus
      obtain ⟨tok', htok', -, htext'⟩ := hkeeps d hd hstatus i tok hminted htok
      simp [hminted, htok, htok', htext']
    · rw [if_neg hstatus, if_neg hstatus]

theorem TokenWrite.outstanding {hashes : List String} (h : TokenWrite hashes db db')
    (hbacked : Backed db) :
    Backed db' ∧ AdminPlane.outstanding db' = AdminPlane.outstanding db :=
  outstanding_of_keeps hbacked h.devices fun _ _ _ i tok _ htok => h.keeps i tok htok

theorem outstanding_revokeTokens (p : Int → AdminToken → Bool) (now : Int)
    (hbacked : Backed db) :
    Backed (db.revokeTokens p now) ∧
      outstanding (db.revokeTokens p now) = outstanding db := by
  have hwrite : TokenWrite [] db (db.revokeTokens p now) := .revokeTokens p now
  exact hwrite.outstanding hbacked

theorem outstanding_deleteAdmin {target : Int} (hbacked : Backed db)
    (hleaves : ∀ d ∈ db.deviceCodes.rows, d.status = .approved → d.adminId ≠ some target) :
    Backed (db.deleteAdmin target) ∧ outstanding (db.deleteAdmin target) = outstanding db := by
  refine outstanding_of_keeps hbacked rfl ?_
  intro d hd hstatus i tok hminted htok
  refine ⟨tok, RowTable.get_delete htok ?_, rfl, rfl⟩
  obtain ⟨i', tok', -, hminted', htok', hadmin, -⟩ := hbacked d hd hstatus
  obtain rfl : i = i' := Option.some.inj (hminted.symm.trans hminted')
  obtain rfl : tok = tok' := Option.some.inj (htok.symm.trans htok')
  have hother := hleaves d hd hstatus
  rw [hadmin] at hother
  exact beq_eq_false_iff_ne.mpr fun h => hother (congrArg some h)

/-! ### Codes that are not approved after the statement -/

/-- A change after which a code is what it was, or not approved. -/
def Disapproves (f : DeviceCode → DeviceCode) : Prop :=
  ∀ d, (f d).status = .approved → ∃ t, f d = { d with lastPolledAt := t }

theorem Disapproves.grantOf {f : DeviceCode → DeviceCode} (hf : Disapproves f)
    (tokens : RowTable AdminToken) (d : DeviceCode) :
    AdminPlane.grantOf tokens (f d) = AdminPlane.grantOf tokens d ∨
      AdminPlane.grantOf tokens (f d) = none := by
  by_cases hstatus : (f d).status = .approved
  · obtain ⟨t, heq⟩ := hf d hstatus
    rw [heq]
    exact Or.inl rfl
  · exact Or.inr (if_neg hstatus)

theorem outstanding_updateDevices {p : Int → DeviceCode → Bool} {f : AdminMeta.DeviceChange}
    (hbacked : Backed db) (hf : Disapproves f.apply) :
    Backed (db.updateDevices p f) ∧
      (outstanding (db.updateDevices p f)).Subperm (outstanding db) := by
  constructor
  · intro d hd hstatus
    obtain ⟨i, hd⟩ := RowTable.mem_rows.mp hd
    obtain ⟨d', hd', rfl⟩ := RowTable.mem_entries_update.mp hd
    have hold := hbacked d' (RowTable.mem_rows.mpr ⟨i, hd'⟩)
    by_cases hp : p i d' = true
    · rw [if_pos hp] at hstatus ⊢
      obtain ⟨t, heq⟩ := hf d' hstatus
      rw [heq] at hstatus ⊢
      exact hold hstatus
    · rw [if_neg hp] at hstatus ⊢
      exact hold hstatus
  · exact (RowTable.filterMap_update_sublist (hf.grantOf db.adminTokens)).subperm

theorem outstanding_deleteDevices {p : Int → DeviceCode → Bool} (hbacked : Backed db) :
    Backed (db.deleteDevices p) ∧
      (outstanding (db.deleteDevices p)).Subperm (outstanding db) := by
  refine ⟨?_, RowTable.filterMap_delete_sublist.subperm⟩
  intro d hd hstatus
  exact hbacked d (RowTable.rows_delete_sublist.subset hd) hstatus

/-- A code that is new is pending. -/
theorem outstanding_deviceStart {clientName : Option String} {draws : List (String × String)}
    {now : Int} {codes : String × String} (hbacked : Backed db)
    (h : deviceStart cfg.hashToken db clientName draws now = some (codes, db')) :
    Backed db' ∧ outstanding db' = outstanding db := by
  obtain ⟨d, hpending, hinsert⟩ := deviceStart_insert h
  obtain ⟨hdevices, -, htokens⟩ := AdminMeta.insertDevice_eq_some hinsert
  constructor
  · intro d' hd' hstatus
    rw [hdevices, RowTable.rows_insert] at hd'
    obtain hd' | hd' := List.mem_append.mp hd'
    · rw [htokens]
      exact hbacked d' hd' hstatus
    · rw [List.mem_singleton.mp hd', hpending] at hstatus
      cases hstatus
  · have hnone : grantOf db.adminTokens d = none := if_neg (by rw [hpending]; decide)
    unfold outstanding
    rw [hdevices, htokens, RowTable.rows_insert, List.filterMap_append,
      List.filterMap_cons_none hnone]
    exact List.append_nil _

theorem disapproves_redeem : Disapproves redeem.apply := by
  intro d h
  cases h

theorem disapproves_deny : Disapproves deny.apply := by
  intro d h
  cases h

theorem disapproves_stamp (now : Int) : Disapproves (stamp now).apply :=
  fun _ _ => ⟨_, rfl⟩

/-! ### Redeeming and approving a code -/

/-- What is given out for a code that is redeemed was outstanding, and is not any more. -/
theorem redeemCode_spec (hbacked : Backed db) {deviceCode : String} {j : Int} {d : DeviceCode}
    (hd : (j, d) ∈ db.deviceCodes.entries) (hhash : d.deviceCodeHash = cfg.hashToken deviceCode)
    (now : Int) :
    let out := redeemCode db (cfg.hashToken deviceCode) d.adminId now
    Backed out.2 ∧
      (handoutGrants cfg deviceCode out.1 ++ outstanding out.2).Subperm (outstanding db) := by
  obtain ⟨hbacked', hsub⟩ := outstanding_updateDevices
    (p := redeemable (cfg.hashToken deviceCode) now) hbacked disapproves_redeem
  unfold redeemCode
  dsimp only
  split
  · exact ⟨hbacked', hsub⟩
  · next tokenId hminted =>
    refine ⟨hbacked', ?_⟩
    obtain ⟨⟨i, r⟩, hfind, hminted⟩ := Option.bind_eq_some_iff.mp hminted
    obtain ⟨hr, hredeem⟩ := AdminMeta.findDevice_eq_some hfind
    have hr' : r.deviceCodeHash = cfg.hashToken deviceCode ∧ r.status = .approved := by
      simp only [redeemable, Bool.and_eq_true, beq_iff_eq] at hredeem
      exact hredeem.1
    -- the code that is redeemed is the code that was selected
    obtain ⟨-, rfl⟩ := db.deviceCodeHashes.eq_of_mem hd hr (congrArg some hhash)
      (congrArg some hr'.1)
    unfold redeemedAnswer
    dsimp only
    split
    · exact hsub
    · next tok htok =>
      split
      · exact hsub
      · next accessToken htext =>
        refine RowTable.cons_filterMap_update_subperm hr hredeem ?_
          (fun d => if_neg (by simp [redeem]))
        have hminted : d.mintedTokenId = some tokenId := hminted
        simp [grantOf, hhash, hr'.2, hminted, htok, htext]

theorem handoutGrants_pendingAnswer (deviceCode : String) (d : DeviceCode) (now : Int) :
    handoutGrants cfg deviceCode (pendingAnswer d now) = [] := by
  unfold pendingAnswer
  split <;> rfl

theorem devicePoll_spec (cfg : Config) (hbacked : Backed db) (deviceCode : String) (seen now : Int) :
    let out := devicePoll cfg.hashToken db deviceCode seen now
    Backed out.2 ∧
      (handoutGrants cfg deviceCode out.1 ++ outstanding out.2).Subperm (outstanding db) := by
  unfold devicePoll
  dsimp only
  split
  · exact ⟨hbacked, List.Subperm.refl _⟩
  · next j d hfind =>
    obtain ⟨hd, hhash⟩ := AdminMeta.findDevice_eq_some hfind
    split
    · exact ⟨hbacked, List.Subperm.refl _⟩
    · split
      · exact ⟨hbacked, List.Subperm.refl _⟩
      · split
        · exact redeemCode_spec hbacked hd (beq_iff_eq.mp hhash) now
        · rw [handoutGrants_pendingAnswer]
          exact outstanding_updateDevices hbacked (disapproves_stamp now)

/-- An approval adds what it grants. -/
theorem deviceApprove_spec (cfg : Config) (hbacked : Backed db) (adminId : Int)
    (cookie : Option String) (form userCode : String) (ttl : Int) (draw : String) (seen now : Int) :
    let out := deviceApprove cfg.hashToken cfg.csrfFor db adminId cookie form userCode ttl draw
      seen now
    Backed out.2 ∧
      (outstanding out.2).Subperm
        (approvalGrants db adminId userCode draw seen out.1 ++ outstanding db) := by
  unfold deviceApprove
  dsimp only
  split
  · split
    · exact ⟨hbacked, List.Subperm.refl _⟩
    · next rowId d hfind =>
      split
      · exact ⟨hbacked, List.Subperm.refl _⟩
      · next tokenId plaintext db₁ hmint =>
        split
        · exact ⟨hbacked, List.Subperm.refl _⟩
        · obtain ⟨db₂, hinsert, heq⟩ := Option.map_eq_some_iff.mp hmint
          cases heq
          obtain ⟨htokens, -, hdevices⟩ := AdminMeta.insertToken_eq_some hinsert
          obtain ⟨hbacked₁, hsame⟩ := (TokenWrite.insertToken hinsert).outstanding hbacked
          obtain ⟨hd, happrovable⟩ := AdminMeta.findDevice_eq_some hfind
          have hpending : pendingRow rowId rowId d = true := by
            simp only [approvable, Bool.and_eq_true] at happrovable
            simp [pendingRow, happrovable.1.2]
          have hminted : db₁.adminTokens.get db.adminTokens.nextId =
              some (cliRow cfg.hashToken adminId (some d.clientName) ttl draw now) := by
            rw [htokens]
            exact RowTable.get_insert_self
          have honly : ∀ j r, pendingRow rowId j r = true → j = rowId := by
            intro j r hj
            simp only [pendingRow, Bool.and_eq_true, beq_iff_eq] at hj
            exact hj.1
          rw [← hdevices] at hd
          constructor
          · intro r hr hstatus
            obtain ⟨i, hr⟩ := RowTable.mem_rows.mp hr
            obtain ⟨r', hr', rfl⟩ := RowTable.mem_entries_update.mp hr
            by_cases hp : pendingRow rowId i r' = true
            · rw [if_pos hp]
              exact ⟨_, _, _, rfl, hminted, rfl, rfl⟩
            · rw [if_neg hp] at hstatus ⊢
              exact hbacked₁ r' (RowTable.mem_rows.mpr ⟨i, hr'⟩) hstatus
          · have hadd := RowTable.filterMap_update_subperm_cons (g := grantOf db₁.adminTokens)
              (f := (approve adminId db.adminTokens.nextId).apply)
              (x := ⟨d.deviceCodeHash, some adminId, generateCliToken draw⟩) hd hpending honly
              (by simp [grantOf, approve, hminted, cliRow])
            simp only [approvalGrants, hfind]
            exact hadd.trans (by rw [← hsame]; exact List.Subperm.refl _)
  · exact ⟨hbacked, List.Subperm.refl _⟩

/-! ### Runs -/

/-- What was given out and what is outstanding was granted. -/
structure Accounted (granted : List Grant) (s : State) : Prop where
  backed : Backed s.db
  accounted : (s.handouts ++ outstanding s.db).Subperm (granted ++ s.approvals)

section Steps

variable {granted : List Grant} {s s' : State}

/-- A step that gives nothing out and grants nothing. -/
theorem Accounted.shrink (h : Accounted granted s) (hhandouts : s'.handouts = s.handouts)
    (happrovals : s'.approvals = s.approvals)
    (hdb : Backed s'.db ∧ (outstanding s'.db).Subperm (outstanding s.db)) :
    Accounted granted s' := by
  refine ⟨hdb.1, ?_⟩
  rw [hhandouts, happrovals]
  exact ((List.subperm_append_left _).mpr hdb.2).trans h.accounted

theorem Accounted.same (h : Accounted granted s) (hhandouts : s'.handouts = s.handouts)
    (happrovals : s'.approvals = s.approvals)
    (hdb : Backed s'.db ∧ outstanding s'.db = outstanding s.db) : Accounted granted s' :=
  h.shrink hhandouts happrovals ⟨hdb.1, by rw [hdb.2]⟩

theorem Accounted.act {l : Label} (h : Accounted granted s) (hleaves : LeavesNoGrant s l)
    (hact : act cfg s l = some s') : Accounted granted s' := by
  cases l with
  | tick now =>
    cases hact
    exact h.same rfl rfl ⟨h.backed, rfl⟩
  | resolve authorization | session a | profile a =>
    simp only [AdminPlane.act] at hact
    split at hact <;> cases hact <;> exact h.same rfl rfl ⟨h.backed, rfl⟩
  | start clientName draws =>
    simp only [AdminPlane.act] at hact
    split at hact
    · next hstart =>
      cases hact
      exact h.same rfl rfl (outstanding_deviceStart h.backed hstart)
    · cases hact
      exact h
  | poll deviceCode now =>
    cases hact
    obtain ⟨hbacked, hsub⟩ := devicePoll_spec cfg h.backed deviceCode s.now now
    refine ⟨hbacked, ?_⟩
    rw [List.append_assoc]
    exact ((List.subperm_append_left _).mpr hsub).trans h.accounted
  | deny a cookie form userCode =>
    simp only [AdminPlane.act] at hact
    split at hact
    · cases hact
      refine h.shrink rfl rfl ?_
      dsimp only [deviceDeny]
      split
      · exact outstanding_updateDevices h.backed disapproves_deny
      · exact ⟨h.backed, List.Subperm.refl _⟩
    · cases hact
  | approve a cookie form userCode draw now =>
    simp only [AdminPlane.act] at hact
    split at hact
    · cases hact
      obtain ⟨hbacked, hsub⟩ := deviceApprove_spec cfg h.backed a cookie form userCode
        (cliPatTtlSecs cfg.patTtl) draw s.now now
      refine ⟨hbacked, ?_⟩
      refine ((List.subperm_append_left _).mpr hsub).trans ?_
      refine (List.perm_append_comm.append_left s.handouts).subperm.trans ?_
      rw [← List.append_assoc, ← List.append_assoc]
      exact (List.subperm_append_right _).mpr h.accounted
    · cases hact
  | sweep =>
    cases hact
    exact h.shrink rfl rfl (outstanding_deleteDevices h.backed)
  | reroll a draw =>
    simp only [AdminPlane.act] at hact
    split at hact
    · split at hact
      · next hreroll =>
        cases hact
        exact h.same rfl rfl ((TokenWrite.reroll hreroll).outstanding h.backed)
      · cases hact
        exact h
    · cases hact
  | refresh caller draw =>
    simp only [AdminPlane.act] at hact
    split at hact
    · cases hact
      exact h.same rfl rfl ((TokenWrite.cliTokenRefresh _ _ _ _ _ _).outstanding h.backed)
    · cases hact
  | logout caller | revoke a tokenId =>
    simp only [AdminPlane.act] at hact
    split at hact
    · cases hact
      exact h.same rfl rfl (outstanding_revokeTokens _ _ h.backed)
    · cases hact
  | invite a profileRole email role draw =>
    simp only [AdminPlane.act] at hact
    split at hact
    · cases hact
      exact h.same rfl rfl ((TokenWrite.inviteAdmin _ _ _ _ _ _).outstanding h.backed)
    · cases hact
  | batchInvite a profileRole emails role draw =>
    simp only [AdminPlane.act] at hact
    split at hact
    · cases hact
      exact h.same rfl rfl ((TokenWrite.batchInviteAdmin _ _ _ _ _ _ _).outstanding h.backed)
    · cases hact
  | changeRole a profileRole target newRole =>
    simp only [AdminPlane.act] at hact
    split at hact
    · cases hact
      exact h.same rfl rfl ((TokenWrite.changeRole _ _ _ _).outstanding h.backed)
    · cases hact
  | remove a profileRole target =>
    simp only [AdminPlane.act] at hact
    split at hact
    · cases hact
      refine h.same rfl rfl ?_
      dsimp only
      obtain heq | heq := removeAdmin_eq s.db profileRole target
      · rw [heq]
        exact ⟨h.backed, rfl⟩
      · rw [heq]
        exact outstanding_deleteAdmin h.backed hleaves
    · cases hact

theorem Accounted.step {l : Label} (h : Accounted granted s) (hleaves : LeavesNoGrant s l)
    (hstep : step cfg s l = some s') : Accounted granted s' := by
  obtain ⟨t, hact, rfl⟩ := Option.map_eq_some_iff.mp hstep
  have ht := h.act hleaves hact
  exact ⟨ht.backed, ht.accounted⟩

end Steps

/-- In every interleaving, what the polls gave out and what is outstanding are different grants: of
the codes that were approved at the start, and of the approvals of the run. -/
theorem handouts_accounted (cfg : Config) (db : AdminMeta) (now : Int) (ls : List Label) (s : State)
    (hbacked : Backed db) (hrun : Transition.run (step cfg) (start db now) ls = some s)
    (hleaves : Transition.Along (step cfg) LeavesNoGrant (start db now) ls) :
    (s.handouts ++ outstanding s.db).Subperm (outstanding db ++ s.approvals) := by
  have hstart : Accounted (outstanding db) (start db now) := by
    refine ⟨hbacked, ?_⟩
    exact List.perm_append_comm.subperm
  exact (hleaves.invariant (fun h hC hstep => h.step hC hstep) hstart hrun).accounted

/-- An owner and a member. The owner has replaced the token that it had first. -/
def twoAdmins : AdminMeta where
  admins :=
    ⟨[(1, { username := "ann", role := "owner" }), (2, { username := "bob" })], by decide⟩
  adminTokens :=
    ⟨[(1, { adminId := 1, tokenHash := "h1", revokedAt := some 0 }),
      (2, { adminId := 2, tokenHash := "h2", plaintext := some "drust_pat_bob" }),
      (3, { adminId := 1, tokenHash := "h3", plaintext := some "drust_pat_ann" })], by decide⟩
  deviceCodes := ⟨[], by decide⟩
  usernames := by decide
  emails := by decide
  tokenHashes := by decide
  activePats := by decide
  tokenAdmins := by decide
  deviceCodeHashes := by decide
  userCodes := by decide

def plainConfig : Config where
  hashToken tok := "hash of " ++ tok
  csrfFor adminId userCode := toString adminId ++ ":" ++ userCode

/-- The member approves a device. -/
def approvedDevice : List Label :=
  [.start none [("code", "ABCD-EFGH")], .session 2, .profile 2,
    .approve 2 (some "2:ABCD-EFGH") "2:ABCD-EFGH" "ABCD-EFGH" "x" 1000]

/-- Two polls, of which the first gets the token. -/
theorem handouts_accounted_polls :
    ∃ s, Transition.run (step plainConfig) (start twoAdmins 0)
        (approvedDevice ++ [.poll "code" 6000, .poll "code" 12000]) = some s ∧
      s.handouts = [⟨"hash of code", some 2, "drust_pat_cli_x"⟩] ∧
      (s.handouts ++ outstanding s.db).Subperm (outstanding twoAdmins ++ s.approvals) := by
  have hsome : (Transition.run (step plainConfig) (start twoAdmins 0)
      (approvedDevice ++ [.poll "code" 6000, .poll "code" 12000])).map State.handouts =
        some [⟨"hash of code", some 2, "drust_pat_cli_x"⟩] := by decide +kernel
  obtain ⟨s, hrun, hhandouts⟩ := Option.map_eq_some_iff.mp hsome
  have hbacked : Backed twoAdmins := by
    intro d hd
    cases hd
  exact ⟨s, hrun, hhandouts, handouts_accounted plainConfig twoAdmins 0 _ s hbacked hrun
    (Transition.Along.of_forall (by simp [approvedDevice, LeavesNoGrant]) _)⟩

/-- The member is removed, and the owner replaces its own token: the new one gets the key of the
token that the approval minted, and the device of the member gets it. -/
theorem next_pat_goes_to_the_removed_admins_device :
    (Transition.run (step plainConfig) (start twoAdmins 0)
      (approvedDevice ++ [.session 1, .profile 1, .remove 1 "owner" 2, .reroll 1 "secret",
        .poll "code" 6000])).map (fun s => (s.approvals, s.handouts)) =
      some ([⟨"hash of code", some 2, "drust_pat_cli_x"⟩],
        [⟨"hash of code", some 2, "drust_pat_secret"⟩]) := by decide +kernel

end AdminPlane

end Drust
