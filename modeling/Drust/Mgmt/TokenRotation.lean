import Drust.Mgmt.DeviceGrants

/-!
# A login has one token at a time

A refresh replaces the token of a command line: it revokes the old row on the condition that it is
still active, and inserts the new one in the same transaction. The token that the request came with
was looked up before that, under another lock, so two requests may come with one token.

What the refreshes of a run replaced is a list of pairs. A token that was replaced is not active any
more and no other pair starts with it (`Rotated`), so what descends from one token is a chain, and
only its end may be active (`one_active_descendant`). The condition is that the generator does not
draw a token again.
-/

namespace Drust

namespace AdminPlane

variable {cfg : Config}

/-- A token with this hash is not revoked. -/
def Active (db : AdminMeta) (h : String) : Prop :=
  ∃ i tok, (i, tok) ∈ db.adminTokens.entries ∧ tok.tokenHash = h ∧ tok.revokedAt = none

/-- The second token is the first one, or replaced what descends from it. -/
def Descends (rotations : List (String × String)) : String → String → Prop :=
  Relation.ReflTransGen fun old new => (old, new) ∈ rotations

/-- What is drawn has not been drawn before. -/
def DrawsNew (cfg : Config) (s : State) (l : Label) : Prop :=
  ∀ h ∈ l.hashes cfg, h ∉ s.issued

instance (s : State) (l : Label) : Decidable (DrawsNew cfg s l) :=
  inferInstanceAs (Decidable (∀ h ∈ l.hashes cfg, h ∉ s.issued))

/-- What was replaced is not active, and was replaced once. -/
structure Rotated (s : State) : Prop where
  active : ∀ h, Active s.db h → h ∈ s.issued
  old : ∀ e ∈ s.rotations, e.1 ∈ s.issued ∧ ¬ Active s.db e.1
  once : (s.rotations.map Prod.fst).Nodup

/-- From one token, two that descend from it and were not replaced are one. -/
theorem eq_of_descends {rotations : List (String × String)} {root a b : String}
    (honce : (rotations.map Prod.fst).Nodup) (ha : Descends rotations root a)
    (hb : Descends rotations root b) (hlast : ∀ e ∈ rotations, e.1 ≠ a)
    (hlast' : ∀ e ∈ rotations, e.1 ≠ b) : a = b := by
  have hunique : Relator.RightUnique fun old new => (old, new) ∈ rotations := by
    intro x y z hy hz
    exact congrArg Prod.snd (List.inj_on_of_nodup_map honce hy hz rfl)
  have hend : ∀ {x y}, (∀ e ∈ rotations, e.1 ≠ x) → Descends rotations x y → x = y := by
    intro x y hx hxy
    obtain hxy | ⟨z, hz, -⟩ := Relation.ReflTransGen.cases_head hxy
    · exact hxy
    · exact absurd rfl (hx _ hz)
  obtain hab | hba := Relation.ReflTransGen.total_of_right_unique hunique ha hb
  · exact hend hlast hab
  · exact (hend hlast' hba).symm

/-! ### The tokens that a step leaves active -/

/-- A token that is active was active, or was generated. -/
def ActiveFrom (hashes : List String) (db db' : AdminMeta) : Prop :=
  ∀ h, Active db' h → Active db h ∨ h ∈ hashes

variable {db db' : AdminMeta}

theorem ActiveFrom.of_eq {hashes : List String} (h : db'.adminTokens = db.adminTokens) :
    ActiveFrom hashes db db' := by
  rintro k ⟨i, tok, htok, hhash, hactive⟩
  exact Or.inl ⟨i, tok, by rwa [h] at htok, hhash, hactive⟩

theorem ActiveFrom.congr {hashes : List String} {db'' : AdminMeta} (h : ActiveFrom hashes db db')
    (heq : db''.adminTokens = db'.adminTokens) : ActiveFrom hashes db db'' := by
  rintro k ⟨i, tok, htok, hhash, hactive⟩
  exact h k ⟨i, tok, by rwa [heq] at htok, hhash, hactive⟩

theorem TokenWrite.activeFrom {hashes : List String} (h : TokenWrite hashes db db') :
    ActiveFrom hashes db db' := by
  rintro k ⟨i, tok, htok, rfl, hactive⟩
  exact (h.active i tok htok hactive).imp_left fun htok => ⟨i, tok, htok, rfl, hactive⟩

theorem activeFrom_deleteAdmin (target : Int) : ActiveFrom [] db (db.deleteAdmin target) := by
  rintro k ⟨i, tok, htok, hhash, hactive⟩
  exact Or.inl ⟨i, tok, (RowTable.mem_entries_delete.mp htok).1, hhash, hactive⟩

theorem activeFrom_act {s s' : State} {l : Label} (hact : act cfg s l = some s') :
    ActiveFrom (l.hashes cfg) s.db s'.db := by
  cases l with
  | tick now =>
    cases hact
    exact .of_eq rfl
  | session a | profile a | resolve authorization =>
    simp only [act] at hact
    split at hact <;> cases hact <;> exact .of_eq rfl
  | start clientName draws =>
    simp only [act] at hact
    split at hact
    · next hstart =>
      cases hact
      obtain ⟨d, -, hinsert⟩ := deviceStart_insert hstart
      exact .of_eq (AdminMeta.insertDevice_eq_some hinsert).2.2
    · cases hact
      exact .of_eq rfl
  | poll deviceCode now =>
    cases hact
    exact .of_eq (devicePoll_others deviceCode s.now now).2
  | deny a cookie form userCode =>
    simp only [act] at hact
    split at hact
    · cases hact
      exact .of_eq (deviceDeny_others a cookie form userCode).2
    · cases hact
  | approve a cookie form userCode draw now =>
    simp only [act] at hact
    split at hact
    · cases hact
      obtain heq | ⟨label, db₁, hinsert, -, htokens⟩ :=
        deviceApprove_others cfg.hashToken cfg.csrfFor s.db a cookie form userCode
          (cliPatTtlSecs cfg.patTtl) draw s.now now
      · exact .of_eq (congrArg AdminMeta.adminTokens heq)
      · exact (TokenWrite.insertToken hinsert).activeFrom.congr htokens
    · cases hact
  | sweep =>
    cases hact
    exact .of_eq rfl
  | reroll a draw =>
    simp only [act] at hact
    split at hact
    · split at hact
      · next hreroll =>
        cases hact
        exact (TokenWrite.reroll hreroll).activeFrom
      · cases hact
        exact .of_eq rfl
    · cases hact
  | refresh caller draw =>
    simp only [act] at hact
    split at hact
    · cases hact
      exact (TokenWrite.cliTokenRefresh _ _ _ _ _ _).activeFrom
    · cases hact
  | logout caller | revoke a tokenId =>
    simp only [act] at hact
    split at hact
    · cases hact
      exact (TokenWrite.revokeTokens _ _).activeFrom
    · cases hact
  | invite a profileRole email role draw =>
    simp only [act] at hact
    split at hact
    · cases hact
      exact (TokenWrite.inviteAdmin _ _ _ _ _ _).activeFrom
    · cases hact
  | batchInvite a profileRole emails role draw =>
    simp only [act] at hact
    split at hact
    · cases hact
      exact (TokenWrite.batchInviteAdmin _ _ _ _ _ _ _).activeFrom
    · cases hact
  | changeRole a profileRole target newRole =>
    simp only [act] at hact
    split at hact
    · cases hact
      exact (TokenWrite.changeRole _ _ _ _).activeFrom
    · cases hact
  | remove a profileRole target =>
    simp only [act] at hact
    split at hact
    · cases hact
      dsimp only
      obtain heq | heq := removeAdmin_eq s.db profileRole target
      · exact .of_eq (by rw [heq])
      · rw [heq]
        exact activeFrom_deleteAdmin target
    · cases hact

/-! ### A refresh -/

/-- A refresh replaces a token that is active, and leaves it revoked. -/
theorem replacements_spec {caller : CliCaller} {ttl : Int} {draw : String} {now : Int}
    {e : String × String}
    (hnew : ¬ Active db (cfg.hashToken (generateCliToken draw)))
    (he : e ∈ replacements cfg db caller (cliTokenRefresh cfg.hashToken db caller ttl draw now).1) :
    replacements cfg db caller (cliTokenRefresh cfg.hashToken db caller ttl draw now).1 = [e] ∧
      Active db e.1 ∧ ¬ Active (cliTokenRefresh cfg.hashToken db caller ttl draw now).2 e.1 := by
  revert he
  unfold cliTokenRefresh
  split
  · exact fun he => absurd he List.not_mem_nil
  · split
    · exact fun he => absurd he List.not_mem_nil
    · next hcount =>
      split
      · exact fun he => absurd he List.not_mem_nil
      · next db₁ hinsert =>
        dsimp only [replacements]
        -- the row that is counted is the row of the key
        obtain ⟨⟨i, tok⟩, hmem, hrow⟩ := RowTable.count_pos (t := db.adminTokens)
          (p := activeRow caller.tokenId) (by omega)
        simp only [activeRow, Bool.and_eq_true, beq_iff_eq, Option.isNone_iff_eq_none] at hrow
        obtain ⟨rfl, hactive⟩ := hrow
        rw [RowTable.get_eq_some_iff.mpr hmem]
        intro he
        obtain rfl := List.mem_singleton.mp he
        have hold : Active db tok.tokenHash := ⟨_, tok, hmem, rfl, hactive⟩
        refine ⟨rfl, hold, ?_⟩
        rintro ⟨j, tok', htok', hhash, hactive'⟩
        rw [(AdminMeta.insertToken_eq_some hinsert).1, RowTable.mem_entries_insert] at htok'
        obtain htok' | htok' := htok'
        · obtain ⟨tok'', htok'', rfl⟩ := RowTable.mem_entries_update.mp htok'
          by_cases hp : activeRow caller.tokenId j tok'' = true
          · rw [if_pos hp] at hactive'
            cases hactive'
          · rw [if_neg hp] at hhash hactive'
            obtain ⟨rfl, rfl⟩ := db.tokenHashes.eq_of_mem htok'' hmem (congrArg some hhash) rfl
            exact hp (by simp [activeRow, hactive])
        · cases htok'
          have hhash : cfg.hashToken (generateCliToken draw) = tok.tokenHash := hhash
          rw [hhash] at hnew
          exact hnew hold

/-! ### Runs -/

theorem Rotated.step {s s' : State} {l : Label} (h : Rotated s) (hnew : DrawsNew cfg s l)
    (hstep : step cfg s l = some s') : Rotated s' := by
  obtain ⟨t, hact, rfl⟩ := Option.map_eq_some_iff.mp hstep
  have hfrom := activeFrom_act hact
  have hactive : ∀ k, Active t.db k → k ∈ s.issued ++ l.hashes cfg := by
    intro k hk
    exact List.mem_append.mpr ((hfrom k hk).imp_left (h.active k))
  have hkept : ∀ k ∈ s.issued, ¬ Active s.db k → ¬ Active t.db k := by
    intro k hk hnot hk'
    obtain hold | hdrawn := hfrom k hk'
    · exact hnot hold
    · exact hnew k hdrawn hk
  -- the old pairs stay as they are, whatever the step
  have hold : ∀ e ∈ s.rotations, e.1 ∈ s.issued ++ l.hashes cfg ∧ ¬ Active t.db e.1 := by
    intro e he
    obtain ⟨hissued, hnot⟩ := h.old e he
    exact ⟨List.mem_append_left _ hissued, hkept e.1 hissued hnot⟩
  have hsame : t.rotations = s.rotations →
      Rotated { t with issued := s.issued ++ l.hashes cfg } := by
    intro heq
    exact ⟨hactive, by rw [heq]; exact hold, by rw [heq]; exact h.once⟩
  cases l with
  | refresh caller draw =>
    simp only [act] at hact
    split at hact
    · cases hact
      have hdraw : ¬ Active s.db (cfg.hashToken (generateCliToken draw)) :=
        fun hk => hnew _ List.mem_cons_self (h.active _ hk)
      obtain hnil | hne := eq_or_ne (replacements cfg s.db caller (cliTokenRefresh cfg.hashToken
        s.db caller (cliPatTtlSecs cfg.patTtl) draw s.now).1) []
      · exact hsame (by rw [hnil, List.append_nil])
      · obtain ⟨e, he⟩ := List.exists_mem_of_ne_nil _ hne
        obtain ⟨heq, hwas, hnot⟩ := replacements_spec hdraw he
        refine ⟨hactive, ?_, ?_⟩
        · intro e' he'
          rw [heq] at he'
          obtain he' | he' := List.mem_append.mp he'
          · exact hold e' he'
          · rw [List.mem_singleton.mp he']
            exact ⟨List.mem_append_left _ (h.active _ hwas), hnot⟩
        · rw [heq, List.map_append, List.map_singleton, List.nodup_append_comm]
          refine List.nodup_cons.mpr ⟨?_, h.once⟩
          intro hmem
          obtain ⟨e', he', heq'⟩ := List.mem_map.mp hmem
          rw [← heq'] at hwas
          exact (h.old e' he').2 hwas
    · cases hact
  | tick now | poll deviceCode now | sweep =>
    cases hact
    exact hsame rfl
  | start clientName draws | resolve authorization =>
    simp only [act] at hact
    split at hact <;> cases hact <;> exact hsame rfl
  | reroll a draw =>
    simp only [act] at hact
    split at hact
    · split at hact <;> cases hact <;> exact hsame rfl
    · cases hact
  | _ =>
    simp only [act] at hact
    split at hact
    · cases hact
      exact hsame rfl
    · cases hact

/-- However the refreshes of a run interleave with each other and with everything else, at most one
of the tokens that descend from a token is active. -/
theorem one_active_descendant (cfg : Config) (db : AdminMeta) (now : Int) (ls : List Label)
    (s : State) (root a b : String)
    (hrun : Transition.run (step cfg) (start db now) ls = some s)
    (hnew : Transition.Along (step cfg) (DrawsNew cfg) (start db now) ls)
    (ha : Descends s.rotations root a) (hb : Descends s.rotations root b)
    (hactive : Active s.db a) (hactive' : Active s.db b) : a = b := by
  have hstart : Rotated (start db now) := by
    refine ⟨?_, List.forall_mem_nil _, List.nodup_nil⟩
    rintro k ⟨i, tok, htok, rfl, -⟩
    exact List.mem_map_of_mem (RowTable.mem_rows.mpr ⟨i, htok⟩)
  have h := hnew.invariant (fun h hC hstep => h.step hC hstep) hstart hrun
  refine eq_of_descends h.once ha hb ?_ ?_
  · rintro e he rfl
    exact (h.old e he).2 hactive
  · rintro e he rfl
    exact (h.old e he).2 hactive'

/-- A request of the device of the member. -/
def deviceCaller (tokenId : Int) : CliCaller where
  tokenId := tokenId
  adminId := 2
  email := none
  label := some "drust-cli"

/-- Two requests come with one token, and only one of them gets a new one. That one is replaced
again. -/
def crossedRefreshes : List Label :=
  approvedDevice ++ [.poll "code" 6000, .resolve (some "Bearer drust_pat_cli_x"),
    .resolve (some "Bearer drust_pat_cli_x"), .refresh (deviceCaller 4) "y",
    .refresh (deviceCaller 4) "z", .resolve (some "Bearer drust_pat_cli_y"),
    .refresh (deviceCaller 5) "w"]

theorem one_active_descendant_crossed :
    ∃ s, Transition.run (step plainConfig) (start twoAdmins 0) crossedRefreshes = some s ∧
      s.rotations = [("hash of drust_pat_cli_x", "hash of drust_pat_cli_y"),
        ("hash of drust_pat_cli_y", "hash of drust_pat_cli_w")] ∧
      ∀ b, Descends s.rotations "hash of drust_pat_cli_x" b → Active s.db b →
        "hash of drust_pat_cli_w" = b := by
  have hsome : (Transition.run (step plainConfig) (start twoAdmins 0) crossedRefreshes).map
      (fun s => (s.rotations, s.db.adminTokens.get 6)) =
        some ([("hash of drust_pat_cli_x", "hash of drust_pat_cli_y"),
          ("hash of drust_pat_cli_y", "hash of drust_pat_cli_w")],
          some (cliRow plainConfig.hashToken 2 (some "drust-cli") 86400 "w" 0)) := by
    decide +kernel
  obtain ⟨s, hrun, heq⟩ := Option.map_eq_some_iff.mp hsome
  obtain ⟨hrotations, hlast⟩ := Prod.mk.inj heq
  refine ⟨s, hrun, hrotations, ?_⟩
  intro b hb hactive
  refine one_active_descendant plainConfig twoAdmins 0 crossedRefreshes s _ _ b hrun
    (by decide +kernel) ?_ hb ⟨6, _, RowTable.get_eq_some_iff.mp hlast, by decide, rfl⟩ hactive
  rw [hrotations]
  exact (Relation.ReflTransGen.single List.mem_cons_self).tail (List.mem_cons_of_mem _ List.mem_cons_self)

end AdminPlane

end Drust
