import Drust.Mgmt.RequestRuns

/-!
# The cap on tenants

A member owns at most as many tenants as its cap says, in every state that a host reaches without an
owner who takes away from a member (`members_within_cap`). The gate counts under the lock that the
tenant is inserted under. A cap is only raised by an approval. The id of an admin who is removed is
given to the next one together with nothing: the tenants lose their owner with the row.
-/

namespace Drust

namespace RequestPlane

open Tenants (effectiveCap MakeInput MakeError)

variable {cfg : Config} {s s' : State} {l : Label}

/-- A tenant counts for its owner while it is not deleted. -/
def countsFor (i : Int) (t : Tenant) : Bool :=
  t.ownerAdminId == some i && t.deletedAt.isNone

theorem owned_mapValues_le {h h' : Hosted} {f : String → Tenant → Tenant} {i : Int}
    (hh : h'.tenants = h.tenants.mapValues f)
    (hf : ∀ id t, countsFor i (f id t) = true → countsFor i t = true) : h'.owned i ≤ h.owned i := by
  unfold Hosted.owned
  rw [hh, KeyMap.mapValues, List.countP_map]
  exact Int.ofNat_le.mpr (List.countP_mono_left fun e _ => hf e.1 e.2)

theorem owned_putTenant_le {h : Hosted} {id : String} {t : Tenant}
    (ht : ∀ i, t.ownerAdminId = some i → i ∈ h.admins.ids) (i : Int) :
    (h.putTenant id t ht).owned i ≤ h.owned i + if countsFor i t then 1 else 0 := by
  have hrest : (h.tenants.erase id).entries.countP (fun e => countsFor i e.2) ≤
      h.tenants.entries.countP fun e => countsFor i e.2 :=
    List.filter_sublist.countP_le
  have hall : (h.putTenant id t ht).owned i =
      ((((id, t) :: (h.tenants.erase id).entries).countP fun e => countsFor i e.2 : Nat) : Int) := rfl
  have hold : h.owned i = ((h.tenants.entries.countP fun e => countsFor i e.2 : Nat) : Int) := rfl
  rw [hall, hold, List.countP_cons]
  split <;> push_cast <;> omega

/-- Nobody's id has no tenants. -/
theorem owned_eq_zero {h : Hosted} {i : Int} (hi : i ∉ h.admins.ids) : h.owned i = 0 := by
  unfold Hosted.owned
  rw [Int.natCast_eq_zero, List.countP_eq_zero]
  rintro ⟨id, t⟩ hmem hcounts
  obtain ⟨howner, -⟩ := Bool.and_eq_true_iff.mp hcounts
  exact hi (h.owners id t (KeyMap.get_eq_some_iff.mpr hmem) i (beq_iff_eq.mp howner))

/-- No member owns more tenants than its cap. -/
def WithinCap (cfg : Config) (h : Hosted) : Prop :=
  ∀ i a, h.admins.get i = some a → Tenants.seesAllTenants a.role = false →
    h.owned i ≤ effectiveCap cfg.defaultCap a.tenantCapBonus

/-- An owner does not take away from a member: no cap is set below what it was, a tenant that is given
to somebody fits, and so do those of an admin who becomes a member. -/
def Spared (cfg : Config) (s : State) : Label → Prop
  | .patchAdminTenantCap _ i cap => ∀ a ∈ s.hosted.admins.get i,
    effectiveCap cfg.defaultCap a.tenantCapBonus ≤
      effectiveCap cfg.defaultCap ((cap.map (bonusForTarget cfg.defaultCap)).getD 0)
  | .patchTenantOwner _ _ newOwner => ∀ i ∈ newOwner, ∀ a ∈ s.hosted.admins.get i,
    Tenants.mayCreateTenant a.role (s.hosted.owned i)
      (effectiveCap cfg.defaultCap a.tenantCapBonus) = true
  | .changeRole i role => Tenants.seesAllTenants role = false → ∀ a ∈ s.hosted.admins.get i,
    s.hosted.owned i ≤ effectiveCap cfg.defaultCap a.tenantCapBonus
  | _ => True

instance Spared.decidable (cfg : Config) (s : State) : ∀ l, Decidable (Spared cfg s l)
  | .patchAdminTenantCap _ i _ =>
    inferInstanceAs (Decidable (∀ a ∈ s.hosted.admins.get i, _ ≤ _))
  | .patchTenantOwner _ _ newOwner =>
    inferInstanceAs (Decidable (∀ i ∈ newOwner, ∀ a ∈ s.hosted.admins.get i, _ = true))
  | .changeRole i _ =>
    inferInstanceAs (Decidable (_ = false → ∀ a ∈ s.hosted.admins.get i, _ ≤ _))
  | .tick _ | .insertAdmin _ | .removeAdmin _ | .makeTenant _ | .softDeleteTenant _ _
  | .patchTenantQuota _ _ _ | .createCapRequest _ _ _ | .createQuotaRequest _ _ _ _
  | .decideCapRequest _ _ _ _ | .decideQuotaRequest _ _ _ | .pruneOnce =>
    inferInstanceAs (Decidable True)

theorem effectiveCap_nonneg (default bonus : Int) : 0 ≤ effectiveCap default bonus :=
  le_max_right _ _

/-- The rows of the admins change, and each member who is left has at least the cap that it had. -/
theorem WithinCap.mono {h h' : Hosted} (hcap : WithinCap cfg h)
    (howned : ∀ i, h'.owned i ≤ h.owned i)
    (hadmins : ∀ i a', h'.admins.get i = some a' → Tenants.seesAllTenants a'.role = false →
      ∃ a, h.admins.get i = some a ∧ Tenants.seesAllTenants a.role = false ∧
        effectiveCap cfg.defaultCap a.tenantCapBonus ≤
          effectiveCap cfg.defaultCap a'.tenantCapBonus) :
    WithinCap cfg h' := by
  intro i a' ha' hmember
  obtain ⟨a, ha, hrole, hle⟩ := hadmins i a' ha' hmember
  exact (howned i).trans ((hcap i a ha hrole).trans hle)

/-- The same admins, with no more tenants. -/
theorem WithinCap.of_owned_le {h h' : Hosted} (hcap : WithinCap cfg h) (hadmins : h'.admins = h.admins)
    (howned : ∀ i, h'.owned i ≤ h.owned i) : WithinCap cfg h' := by
  refine hcap.mono howned ?_
  intro i a ha hrole
  exact ⟨a, hadmins ▸ ha, hrole, Int.le_refl _⟩

theorem WithinCap.insertAdmin {h : Hosted} (hcap : WithinCap cfg h) (a : Admin) :
    WithinCap cfg (h.insertAdmin a) := by
  intro i a' ha' hrole
  obtain hmem | heq := RowTable.mem_entries_insert.mp (RowTable.get_eq_some_iff.mp ha')
  · exact hcap i a' (RowTable.get_eq_some_iff.mpr hmem) hrole
  · -- a new admin owns nothing, since its id was nobody's
    cases heq
    have hnone : h.owned h.admins.nextId = 0 := owned_eq_zero RowTable.nextId_notMem
    exact hnone.trans_le (effectiveCap_nonneg _ _)

/-- One admin is changed so that it still fits, if it is a member. -/
theorem WithinCap.updateAdmin {h : Hosted} {i : Int} {f : Admin → Admin} (hcap : WithinCap cfg h)
    (hf : ∀ a, h.admins.get i = some a → Tenants.seesAllTenants (f a).role = false →
      h.owned i ≤ effectiveCap cfg.defaultCap (f a).tenantCapBonus) :
    WithinCap cfg (h.updateAdmin i f) := by
  intro j a' ha' hrole
  rw [Hosted.updateAdmin, RowTable.get_update] at ha'
  obtain ⟨a, ha, rfl⟩ := Option.map_eq_some_iff.mp ha'
  by_cases hj : j = i
  · subst hj
    rw [if_pos (beq_self_eq_true j)] at hrole ⊢
    exact hf a ha hrole
  · have hne : ¬ (j == i) = true := by simpa using hj
    rw [if_neg hne] at hrole ⊢
    exact hcap j a ha hrole

theorem WithinCap.deleteAdmin {h : Hosted} (hcap : WithinCap cfg h) (i : Int) :
    WithinCap cfg (h.deleteAdmin i) := by
  refine hcap.mono (fun j => ?_) ?_
  · refine owned_mapValues_le (f := fun _ => Hosted.disown i) rfl ?_
    intro _ t hcounts
    unfold Hosted.disown at hcounts
    split at hcounts
    · cases hcounts
    · exact hcounts
  · intro j a ha hrole
    obtain ⟨hmem, -⟩ := RowTable.mem_entries_delete.mp (RowTable.get_eq_some_iff.mp ha)
    exact ⟨a, RowTable.get_eq_some_iff.mpr hmem, hrole, Int.le_refl _⟩

/-- A tenant is put under an owner who may have one more. -/
theorem WithinCap.putTenant {h : Hosted} {id : String} {t : Tenant} (hcap : WithinCap cfg h)
    (ht : ∀ i, t.ownerAdminId = some i → i ∈ h.admins.ids)
    (hmay : ∀ i a, t.ownerAdminId = some i → h.admins.get i = some a →
      Tenants.mayCreateTenant a.role (h.owned i)
        (effectiveCap cfg.defaultCap a.tenantCapBonus) = true) :
    WithinCap cfg (h.putTenant id t ht) := by
  intro i a ha hrole
  have hle : (h.putTenant id t ht).owned i ≤ h.owned i + if countsFor i t then 1 else 0 :=
    owned_putTenant_le ht i
  by_cases howner : t.ownerAdminId = some i
  · have hroom := hmay i a howner ha
    rw [Tenants.mayCreateTenant, hrole, Bool.false_or, decide_eq_true_iff] at hroom
    split at hle <;> omega
  · have hcounts : countsFor i t = false := by simp [countsFor, howner]
    rw [hcounts] at hle
    exact hle.trans (by simpa using hcap i a ha hrole)

/-! ### The gate on a new tenant -/

theorem lookupAdminCap_metaDb (h : Hosted) (i : Int) :
    Tenants.lookupAdminCap cfg.defaultCap h.metaDb i = lookupAdminCap cfg h i := by
  unfold Tenants.lookupAdminCap lookupAdminCap RowTable.get Hosted.metaDb
  rw [List.find?_map, Option.map_map, Option.map_map]
  rfl

theorem ownedTenantCount_metaDb (h : Hosted) (i : Int) :
    Tenants.ownedTenantCount h.metaDb i = h.owned i := by
  unfold Tenants.ownedTenantCount Hosted.owned Hosted.metaDb
  rw [List.countP_map]
  rfl

/-- What passes the checks passes the gate. -/
theorem mayCreate_of_checkTenant {f : Tenants.Faults} {d : Int} {w : Tenants.World} {inp : MakeInput}
    {branch : Tenants.Branch} (h : Tenants.checkTenant f d w inp = .ok branch) :
    Tenants.mayCreateTenant ((Tenants.lookupAdminCap d w.db inp.ownerAdminId).getD ("member", 0)).1
      (Tenants.ownedTenantCount w.db inp.ownerAdminId)
      ((Tenants.lookupAdminCap d w.db inp.ownerAdminId).getD ("member", 0)).2 = true := by
  obtain ⟨owned, howned, h⟩ := Except.bind_eq_ok_iff.mp h
  obtain ⟨found, hfound, h⟩ := Except.bind_eq_ok_iff.mp h
  obtain rfl := Option.some.inj (Tenants.attempt_eq_ok_iff.mp howned).2
  obtain rfl := Option.some.inj (Tenants.attempt_eq_ok_iff.mp hfound).2
  dsimp only at h
  split at h
  · cases h
  · next hmay => simpa using hmay

theorem mayCreate_of_made {inp : MakeInput} {branch : Tenants.Branch}
    (h : Tenants.checkTenant noFaults cfg.defaultCap ⟨s.hosted.metaDb, none⟩ inp = .ok branch)
    {a : Admin} (ha : s.hosted.admins.get inp.ownerAdminId = some a) :
    Tenants.mayCreateTenant a.role (s.hosted.owned inp.ownerAdminId)
      (effectiveCap cfg.defaultCap a.tenantCapBonus) = true := by
  have hmay := mayCreate_of_checkTenant h
  rw [lookupAdminCap_metaDb, ownedTenantCount_metaDb, lookupAdminCap, ha] at hmay
  exact hmay

/-! ### Whole runs -/

/-- A tenant that keeps its owner counts for nobody else. -/
theorem WithinCap.updateTenant {h : Hosted} (hcap : WithinCap cfg h) (id : String)
    {f : Tenant → Tenant} (hf : ∀ t, (f t).ownerAdminId = t.ownerAdminId) :
    WithinCap cfg (h.updateTenant id f hf) := by
  refine hcap.of_owned_le rfl fun i => ?_
  refine owned_mapValues_le
    (f := fun k t => if k = id ∧ t.deletedAt = none then f t else t) rfl ?_
  intro k t hcounts
  split at hcounts
  · next hlive =>
    unfold countsFor at hcounts ⊢
    rw [hf, Bool.and_eq_true_iff] at hcounts
    exact Bool.and_eq_true_iff.mpr ⟨hcounts.1, Option.isNone_iff_eq_none.mpr hlive.2⟩
  · exact hcounts

theorem WithinCap.softDelete {h : Hosted} (hcap : WithinCap cfg h) (id stamp : String) :
    WithinCap cfg (h.softDelete id stamp) :=
  hcap.updateTenant id _

theorem WithinCap.setTier {h : Hosted} (hcap : WithinCap cfg h) (id : String) (tier : Int) :
    WithinCap cfg (h.setTier id tier) :=
  hcap.updateTenant id _

theorem Effect.withinCap (h : Effect cfg s l s') (hspared : Spared cfg s l) (hinv : Inv cfg s)
    (hcap : WithinCap cfg s.hosted) : WithinCap cfg s'.hosted := by
  cases h with
  | ticked seconds => exact hcap
  | inserted role => exact hcap.insertAdmin _
  | changed id role => exact hcap.updateAdmin fun a ha hrole => hspared hrole a ha
  | removed id => exact hcap.deleteAdmin id
  | made inp branch hcheck hmake =>
    obtain ⟨ht, hhosted, -⟩ := makeTenant_eq_ok hmake
    rw [hhosted]
    refine hcap.putTenant ht ?_
    intro i a hi ha
    obtain rfl : inp.ownerAdminId = i := Option.some.inj hi
    exact mayCreate_of_made hcheck ha
  | deleted id stamp => exact hcap.softDelete id stamp
  | ownerSet isOwner id newOwner t hlive hadmin => exact hcap.putTenant hadmin fun i a hi ha => hspared i hi a ha
  | capSet isOwner subject cap =>
    exact hcap.updateAdmin fun a ha hrole => (hcap subject a ha hrole).trans (hspared a ha)
  | tierSet isOwner id tier => exact hcap.setTier id tier
  | capFiled caller requestedCap reason ask _ _ _ => exact hcap
  | quotaFiled caller id requestedTier reason ask _ _ _ => exact hcap
  | capDecided caller id action r approve hdecide =>
    cases approve with
    | false => exact hcap
    | true =>
      obtain ⟨hpending, -, hlevel⟩ := decideRequest_eq_ok hdecide
      obtain ⟨level, hlevel, hlt⟩ := hlevel rfl
      obtain ⟨-, hpos, hmax⟩ := hinv.capMeant _ (mem_of_pendingRequest hpending)
      refine hcap.updateAdmin ?_
      intro a ha hrole
      have hraised := effectiveCap_bonusForTarget cfg hpos hmax
      rw [lookupAdminCap, ha] at hlevel
      have hlevel : effectiveCap cfg.defaultCap a.tenantCapBonus = level := Option.some.inj hlevel
      have hheld := hcap r.subject a ha hrole
      dsimp only at hraised ⊢
      omega
  | quotaDecided caller id action r approve _ =>
    cases approve with
    | true => exact hcap.setTier r.subject r.body.amount
    | false => exact hcap
  | pruned => exact hcap

/-- A host on which no owner takes away from a member never has a member with more tenants than its
cap, whatever is requested, approved, created, deleted and handed to nobody in between. -/
theorem members_within_cap (cfg : Config) (ls : List Label) (s : State)
    (hrun : Transition.run (step cfg) start ls = some s)
    (hspared : Transition.Along (step cfg) (Spared cfg) start ls) : WithinCap cfg s.hosted := by
  have hkept : ∀ {s l s'}, Inv cfg s ∧ WithinCap cfg s.hosted → Spared cfg s l →
      step cfg s l = some s' → Inv cfg s' ∧ WithinCap cfg s'.hosted :=
    fun h hspared hstep => ⟨h.1.step hstep, (step_effect hstep).withinCap hspared h.1 h.2⟩
  have hstart : WithinCap cfg start.hosted := by
    intro i a ha
    cases ha
  exact (Transition.Along.invariant hkept ⟨inv_start cfg, hstart⟩ hspared hrun).2

/-- A member at the cap is given a higher one and makes a second tenant, and gets a third one after the
first was deleted. -/
def capUsedUp : List Label :=
  [.insertAdmin "owner", .insertAdmin "member", .makeTenant { Tenants.shop with ownerAdminId := 2 },
    .createCapRequest 2 2 none, .decideCapRequest true 1 1 "approve",
    .makeTenant { Tenants.shop with ownerAdminId := 2, id := "blog" },
    .makeTenant { Tenants.shop with ownerAdminId := 1, id := "wiki" },
    .softDeleteTenant "shop" "2026-08-02", .patchTenantOwner true "wiki" (some 2)]

theorem members_within_cap_usedUp :
    ∃ s, Transition.run (step smallHost) start capUsedUp = some s ∧ s.hosted.owned 2 = 2 ∧
      WithinCap smallHost s.hosted := by
  have hsome : (Transition.run (step smallHost) start capUsedUp).map
      (fun s => s.hosted.owned 2) = some 2 := by decide +kernel
  obtain ⟨s, hrun, howned⟩ := Option.map_eq_some_iff.mp hsome
  exact ⟨s, hrun, howned,
    members_within_cap smallHost capUsedUp s hrun (by decide +kernel)⟩

end RequestPlane

end Drust
