import Drust.Mgmt.RequestPlane
import Drust.Mgmt.TenantCreation
import Drust.Lib.Result
import Drust.Lib.Transition

/-!
# Runs of the request queues

What a request is about is a key, and the row under the key may change hands. It does not while there
is a request about it (`requests_stay_with_subjects`): the removal of an admin takes the requests of
the admin with it, and the new tenant under an old id takes those of the old one. So an approval raises
the row that it was asked for (`approvals_raise`). The number of requests in a day, without those that
were taken along so, is bounded whatever the owners decide and the janitor prunes (`daily_budget`).

`Effect` is what a step does when it is not refused. It is a write on each of the queues
(`Effect.capWrite`, `Effect.quotaWrite`), and the rules of the queues are kept by the writes.
-/

namespace Drust

namespace RequestPlane

open Tenants (effectiveCap MakeInput MakeError)

variable {cfg : Config} {s s' : State} {l : Label}

/-! ### Who and what a request is about -/

def adminBirth (h : Hosted) (i : Int) : Option Nat :=
  (h.admins.get i).map Admin.born

def tenantBirth (h : Hosted) (id : String) : Option Nat :=
  (h.tenants.get id).map Tenant.born

/-- The row that a request was filed about has its key, and the amount is one that may be asked
for. -/
def Meant {σ : Type} (maxAmount : Int) (birth : σ → Option Nat) (subject : σ) (ask : Ask) : Prop :=
  birth subject = some ask.born ∧ 1 ≤ ask.amount ∧ ask.amount ≤ maxAmount

theorem Meant.mono {σ : Type} {maxAmount : Int} {birth birth' : σ → Option Nat}
    (h : ∀ i b, birth i = some b → birth' i = some b) (subject : σ) (ask : Ask)
    (hmeant : Meant maxAmount birth subject ask) : Meant maxAmount birth' subject ask :=
  ⟨h _ _ hmeant.1, hmeant.2⟩

/-! ### The births -/

theorem adminBirth_insertAdmin {h : Hosted} {a : Admin} {i : Int} {b : Nat}
    (hb : adminBirth h i = some b) : adminBirth (h.insertAdmin a) i = some b := by
  obtain ⟨a', ha', rfl⟩ := Option.map_eq_some_iff.mp hb
  exact congrArg (Option.map Admin.born) (RowTable.get_insert ha')

theorem adminBirth_updateAdmin {h : Hosted} {j : Int} {f : Admin → Admin}
    (hf : ∀ a, (f a).born = a.born) : adminBirth (h.updateAdmin j f) = adminBirth h := by
  funext i
  unfold adminBirth Hosted.updateAdmin
  rw [RowTable.get_update, Option.map_map]
  refine congrArg (fun g => Option.map g (h.admins.get i)) ?_
  funext a
  dsimp only [Function.comp]
  split
  · exact hf a
  · rfl

theorem adminBirth_deleteAdmin {h : Hosted} {i j : Int} {b : Nat} (hne : i ≠ j)
    (hb : adminBirth h i = some b) : adminBirth (h.deleteAdmin j) i = some b := by
  obtain ⟨a, ha, rfl⟩ := Option.map_eq_some_iff.mp hb
  exact congrArg (Option.map Admin.born) (RowTable.get_delete ha (beq_false_of_ne hne))

theorem tenantBirth_mapValues {h h' : Hosted} {f : String → Tenant → Tenant}
    (hh : h'.tenants = h.tenants.mapValues f) (hf : ∀ id t, (f id t).born = t.born) :
    tenantBirth h' = tenantBirth h := by
  funext id
  unfold tenantBirth
  rw [hh, KeyMap.get_mapValues, Option.map_map]
  refine congrArg (fun g => Option.map g (h.tenants.get id)) ?_
  funext t
  exact hf id t

theorem tenantBirth_deleteAdmin {h : Hosted} {i : Int} :
    tenantBirth (h.deleteAdmin i) = tenantBirth h := by
  refine tenantBirth_mapValues (f := fun _ => Hosted.disown i) rfl ?_
  intro id t
  unfold Hosted.disown
  split <;> rfl

theorem tenantBirth_updateTenant {h : Hosted} {id : String} {f : Tenant → Tenant}
    (hf : ∀ t, (f t).ownerAdminId = t.ownerAdminId) (hborn : ∀ t, (f t).born = t.born) :
    tenantBirth (h.updateTenant id f hf) = tenantBirth h := by
  refine tenantBirth_mapValues
    (f := fun k t => if k = id ∧ t.deletedAt = none then f t else t) rfl ?_
  intro id t
  split
  · exact hborn t
  · rfl

theorem tenantBirth_setTier (h : Hosted) (id : String) (tier : Int) :
    tenantBirth (h.setTier id tier) = tenantBirth h :=
  tenantBirth_updateTenant _ fun _ => rfl

theorem tenantBirth_softDelete (h : Hosted) (id stamp : String) :
    tenantBirth (h.softDelete id stamp) = tenantBirth h :=
  tenantBirth_updateTenant _ fun _ => rfl

theorem tenantBirth_putTenant_of_ne {h : Hosted} {id id' : String} {t : Tenant}
    (ht : ∀ i, t.ownerAdminId = some i → i ∈ h.admins.ids) (hne : id' ≠ id) :
    tenantBirth (h.putTenant id t ht) id' = tenantBirth h id' :=
  congrArg (Option.map Tenant.born) (KeyMap.get_set_of_ne hne)

/-! ### What the handlers do -/

theorem checkFiling_eq_ok {σ : Type} [DecidableEq σ] {rules : FileRules} {limit now : Int}
    {q : RequestQueue σ Ask} {current : Option (Int × Nat)} {subject : σ} {requester amount : Int}
    {reason : Option String} {ask : Ask}
    (h : checkFiling rules limit now q current subject requester amount reason = .ok ask) :
    q.hasPending subject = false ∧
      (0 < limit → (q.submits subject (RequestQueue.day now) : Int) < limit) ∧
      ask.requester = requester ∧ ask.amount = amount ∧ 1 ≤ amount ∧ amount ≤ rules.maxAmount ∧
      ∃ level, current = some (level, ask.born) ∧ level < amount := by
  unfold checkFiling at h
  split at h
  · cases h
  · next hamount =>
    split at h
    · cases h
    · cases h
    · split at h
      · cases h
      · next level born =>
        split at h
        · cases h
        · next hlevel =>
          split at h
          · cases h
          · next hfree =>
            split at h
            · cases h
            · next hroom =>
              cases h
              refine ⟨Bool.eq_false_iff.mpr hfree, ?_, rfl, rfl, ?_, ?_, level, rfl, ?_⟩
              · intro hlimit
                exact not_le.mp fun hle => hroom ⟨hlimit, hle⟩
              · omega
              · omega
              · omega

theorem decideRequest_eq_ok {σ : Type} {rules : DecideRules} {q : RequestQueue σ Ask}
    {current : σ → Option Int} {id : Nat} {action : String} {r : Request σ Ask} {approve : Bool}
    (h : decideRequest rules q current id action = .ok (r, approve)) :
    pendingRequest q id = some r ∧ (approve = true ↔ action = "approve") ∧
      (approve = true → ∃ level, current r.subject = some level ∧ level < r.body.amount) := by
  unfold decideRequest at h
  split at h
  · cases h
  · next haction =>
    split at h
    · cases h
    · next r' hr' =>
      split at h
      · next hreject =>
        cases h
        rw [hreject]
        exact ⟨hr', by decide, fun hfalse => by cases hfalse⟩
      · next hreject =>
        have happrove : action = "approve" := by
          by_contra hne
          exact haction ⟨hne, hreject⟩
        split at h
        · cases h
        · next level hlevel =>
          split at h
          · cases h
          · next hincrease =>
            cases h
            exact ⟨hr', ⟨fun _ => happrove, fun _ => rfl⟩,
              fun _ => ⟨level, hlevel, not_le.mp hincrease⟩⟩

/-- A step, without the branches that refuse it. -/
inductive Effect (cfg : Config) (s : State) : Label → State → Prop
  | ticked (seconds : Nat) : Effect cfg s (.tick seconds) { s with now := s.now + seconds }
  | inserted (role : String) :
    Effect cfg s (.insertAdmin role)
      { s with hosted := s.hosted.insertAdmin { role, born := s.births }, births := s.births + 1 }
  | changed (id : Int) (role : String) :
    Effect cfg s (.changeRole id role)
      { s with hosted := s.hosted.updateAdmin id fun a => { a with role := role } }
  | removed (id : Int) : Effect cfg s (.removeAdmin id) (removeAdmin s id)
  | made (inp : MakeInput) (branch : Tenants.Branch)
    (hcheck : Tenants.checkTenant noFaults cfg.defaultCap ⟨s.hosted.metaDb, none⟩ inp = .ok branch)
    {made : State} (hmake : makeTenant cfg s inp = .ok made) : Effect cfg s (.makeTenant inp) made
  | deleted (id stamp : String) :
    Effect cfg s (.softDeleteTenant id stamp) { s with hosted := s.hosted.softDelete id stamp }
  | ownerSet (isOwner : Bool) (id : String) (newOwner : Option Int) (t : Tenant)
    (hlive : s.hosted.live id = some t) (hadmin : ∀ i, newOwner = some i → i ∈ s.hosted.admins.ids) :
    Effect cfg s (.patchTenantOwner isOwner id newOwner)
      { s with hosted := s.hosted.putTenant id { t with ownerAdminId := newOwner } hadmin }
  | capSet (isOwner : Bool) (subject : Int) (cap : Option Int) :
    Effect cfg s (.patchAdminTenantCap isOwner subject cap) { s with
      hosted := s.hosted.updateAdmin subject fun a =>
        { a with tenantCapBonus := (cap.map (bonusForTarget cfg.defaultCap)).getD 0 } }
  | tierSet (isOwner : Bool) (id : String) (tier : Int) :
    Effect cfg s (.patchTenantQuota isOwner id tier) { s with hosted := s.hosted.setTier id tier }
  | capFiled (caller requestedCap : Int) (reason : Option String) (ask : Ask)
    (hfree : s.capRequests.hasPending caller = false)
    (hroom : 0 < cfg.capDailyLimit →
      (s.capRequests.submits caller (RequestQueue.day s.now) : Int) < cfg.capDailyLimit)
    (hmeant : Meant maxCap (adminBirth s.hosted) caller ask) :
    Effect cfg s (.createCapRequest caller requestedCap reason) { s with
      capRequests := s.capRequests.file caller ask s.now
      capLog := s.capLog ++ [⟨caller, ask, s.now⟩] }
  | quotaFiled (caller : Int) (id : String) (requestedTier : Int) (reason : Option String) (ask : Ask)
    (hfree : s.quotaRequests.hasPending id = false)
    (hroom : 0 < cfg.quotaDailyLimit →
      (s.quotaRequests.submits id (RequestQueue.day s.now) : Int) < cfg.quotaDailyLimit)
    (hmeant : Meant maxTier (tenantBirth s.hosted) id ask) :
    Effect cfg s (.createQuotaRequest caller id requestedTier reason) { s with
      quotaRequests := s.quotaRequests.file id ask s.now
      quotaLog := s.quotaLog ++ [⟨id, ask, s.now⟩] }
  | capDecided (caller : Int) (id : Nat) (action : String) (r : Request Int Ask) (approve : Bool)
    (hdecide : decideRequest capDecideRules s.capRequests
      (fun i => (lookupAdminCap cfg s.hosted i).map Prod.snd) id action = .ok (r, approve)) :
    Effect cfg s (.decideCapRequest true caller id action) { s with
      hosted :=
        if approve then
          s.hosted.updateAdmin r.subject fun a =>
            { a with tenantCapBonus := bonusForTarget cfg.defaultCap r.body.amount }
        else s.hosted
      capRequests := s.capRequests.decide id (statusOf approve) caller s.now }
  | quotaDecided (caller : Int) (id : Nat) (action : String) (r : Request String Ask) (approve : Bool)
    (hdecide : decideRequest quotaDecideRules s.quotaRequests
      (fun id => (s.hosted.live id).map Tenant.quotaTier) id action = .ok (r, approve)) :
    Effect cfg s (.decideQuotaRequest caller id action) { s with
      hosted := if approve then s.hosted.setTier r.subject r.body.amount else s.hosted
      quotaRequests := s.quotaRequests.decide id (statusOf approve) caller s.now }
  | pruned : Effect cfg s .pruneOnce (pruneOnce cfg s)


theorem effect_createCapRequest {caller requestedCap : Int} {reason : Option String} {i : Nat}
    (h : createCapRequest cfg s caller requestedCap reason = .ok (i, s')) :
    Effect cfg s (.createCapRequest caller requestedCap reason) s' := by
  obtain ⟨ask, hask, heq⟩ := Except.map_eq_ok_iff.mp h
  cases heq
  obtain ⟨hfree, hroom, -, hamount, hpos, hmax, level, hcurrent, -⟩ := checkFiling_eq_ok hask
  obtain ⟨a, ha, heq⟩ := Option.map_eq_some_iff.mp hcurrent
  have hborn : a.born = ask.born := congrArg Prod.snd heq
  have hbirth : adminBirth s.hosted caller = some ask.born := by
    rw [adminBirth, ha, Option.map_some, hborn]
  exact .capFiled caller requestedCap reason ask hfree hroom
    ⟨hbirth, hamount ▸ hpos, hamount ▸ hmax⟩

theorem get_of_live {h : Hosted} {id : String} {t : Tenant} (hlive : h.live id = some t) :
    h.tenants.get id = some t ∧ t.deletedAt = none := by
  obtain ⟨hget, hdeleted⟩ := Option.filter_eq_some_iff.mp hlive
  exact ⟨hget, Option.isNone_iff_eq_none.mp hdeleted⟩

theorem effect_createQuotaRequest {caller : Int} {id : String} {requestedTier : Int}
    {reason : Option String} {i : Nat}
    (h : createQuotaRequest cfg s caller id requestedTier reason = .ok (i, s')) :
    Effect cfg s (.createQuotaRequest caller id requestedTier reason) s' := by
  obtain ⟨ask, hask, heq⟩ := Except.map_eq_ok_iff.mp h
  cases heq
  obtain ⟨hfree, hroom, -, hamount, hpos, hmax, level, hcurrent, -⟩ := checkFiling_eq_ok hask
  obtain ⟨t, ht, heq⟩ := Option.map_eq_some_iff.mp hcurrent
  have hborn : t.born = ask.born := congrArg Prod.snd heq
  have hbirth : tenantBirth s.hosted id = some ask.born := by
    rw [tenantBirth, (get_of_live ht).1, Option.map_some, hborn]
  exact .quotaFiled caller id requestedTier reason ask hfree hroom
    ⟨hbirth, hamount ▸ hpos, hamount ▸ hmax⟩

theorem effect_decideCapRequest {isOwner : Bool} {caller : Int} {id : Nat} {action : String}
    (h : decideCapRequest cfg s isOwner caller id action = .ok s') :
    Effect cfg s (.decideCapRequest isOwner caller id action) s' := by
  unfold decideCapRequest at h
  split at h
  · cases h
  · next howner =>
    have howner : isOwner = true := by simpa using howner
    obtain ⟨⟨r, approve⟩, hdecide, rfl⟩ := Except.map_eq_ok_iff.mp h
    rw [howner]
    exact .capDecided caller id action r approve hdecide

theorem effect_decideQuotaRequest {caller : Int} {id : Nat} {action : String}
    (h : decideQuotaRequest s caller id action = .ok s') :
    Effect cfg s (.decideQuotaRequest caller id action) s' := by
  obtain ⟨⟨r, approve⟩, hdecide, rfl⟩ := Except.map_eq_ok_iff.mp h
  exact .quotaDecided caller id action r approve hdecide

theorem effect_patchAdminTenantCap {isOwner : Bool} {subject : Int} {cap : Option Int}
    (h : patchAdminTenantCap cfg s isOwner subject cap = .ok s') :
    Effect cfg s (.patchAdminTenantCap isOwner subject cap) s' := by
  unfold patchAdminTenantCap at h
  split at h
  · cases h
  · split at h
    · cases h
    · split at h
      · cases h
      · cases h
        exact .capSet isOwner subject cap

theorem effect_patchTenantQuota {isOwner : Bool} {id : String} {tier : Int}
    (h : patchTenantQuota s isOwner id tier = .ok s') :
    Effect cfg s (.patchTenantQuota isOwner id tier) s' := by
  unfold patchTenantQuota at h
  split at h
  · cases h
  · split at h
    · cases h
    · split at h
      · cases h
      · cases h
        exact .tierSet isOwner id tier

theorem effect_patchTenantOwner {isOwner : Bool} {id : String} {newOwner : Option Int}
    (h : patchTenantOwner s isOwner id newOwner = .ok s') :
    Effect cfg s (.patchTenantOwner isOwner id newOwner) s' := by
  unfold patchTenantOwner at h
  split at h
  · cases h
  · split at h
    · next hadmin =>
      split at h
      · cases h
      · next t hlive =>
        cases h
        exact .ownerSet isOwner id newOwner t hlive hadmin
    · cases h

theorem effect_softDeleteTenant {id stamp : String} (h : softDeleteTenant s id stamp = .ok s') :
    Effect cfg s (.softDeleteTenant id stamp) s' := by
  unfold softDeleteTenant at h
  split at h
  · cases h
  · cases h
    exact .deleted id stamp

theorem effect_makeTenant {inp : MakeInput} (h : makeTenant cfg s inp = .ok s') :
    Effect cfg s (.makeTenant inp) s' := by
  obtain ⟨branch, hcheck, -⟩ := Except.bind_eq_ok_iff.mp h
  exact .made inp branch hcheck h

theorem step_effect (h : step cfg s l = some s') : Effect cfg s l s' := by
  cases l with
  | tick seconds =>
    cases h
    exact .ticked seconds
  | insertAdmin role =>
    cases h
    exact .inserted role
  | changeRole id role =>
    cases h
    exact .changed id role
  | removeAdmin id =>
    simp only [step] at h
    split at h
    · cases h
      exact .removed id
    · cases h
  | makeTenant inp => exact effect_makeTenant (Except.toOption_eq_some_iff.mp h)
  | softDeleteTenant id stamp => exact effect_softDeleteTenant (Except.toOption_eq_some_iff.mp h)
  | patchTenantOwner isOwner id newOwner =>
    exact effect_patchTenantOwner (Except.toOption_eq_some_iff.mp h)
  | patchAdminTenantCap isOwner subject cap =>
    exact effect_patchAdminTenantCap (Except.toOption_eq_some_iff.mp h)
  | patchTenantQuota isOwner id tier =>
    exact effect_patchTenantQuota (Except.toOption_eq_some_iff.mp h)
  | createCapRequest caller requestedCap reason =>
    obtain ⟨⟨i, t⟩, hok, rfl⟩ := Option.map_eq_some_iff.mp h
    exact effect_createCapRequest (Except.toOption_eq_some_iff.mp hok)
  | createQuotaRequest caller id requestedTier reason =>
    obtain ⟨⟨i, t⟩, hok, rfl⟩ := Option.map_eq_some_iff.mp h
    exact effect_createQuotaRequest (Except.toOption_eq_some_iff.mp hok)
  | decideCapRequest isOwner caller id action =>
    exact effect_decideCapRequest (Except.toOption_eq_some_iff.mp h)
  | decideQuotaRequest caller id action =>
    exact effect_decideQuotaRequest (Except.toOption_eq_some_iff.mp h)
  | pruneOnce =>
    cases h
    exact .pruned

/-! ### What a step does to the queues -/

/-- What a new tenant does to the rows and to the requests about the tenants. -/
theorem makeTenant_eq_ok {inp : MakeInput} (h : makeTenant cfg s inp = .ok s') :
    ∃ ht, s'.hosted = s.hosted.putTenant inp.id
        { name := inp.name, ownerAdminId := some inp.ownerAdminId, born := s.births } ht ∧
      s'.births = s.births + 1 ∧ s'.now = s.now ∧ s'.capRequests = s.capRequests ∧
      s'.capLog = s.capLog ∧
      ((s.hosted.tenants.get inp.id = none ∧ s'.quotaRequests = s.quotaRequests ∧
          s'.quotaLog = s.quotaLog) ∨
        (∃ t, s.hosted.tenants.get inp.id = some t ∧ t.deletedAt ≠ none) ∧
          s'.quotaRequests = s.quotaRequests.purge (fun id _ => id == inp.id) ∧
          s'.quotaLog = s.quotaLog.filter fun f => !(f.subject == inp.id)) := by
  obtain ⟨branch, hcheck, h⟩ := Except.bind_eq_ok_iff.mp h
  split at h
  · next howner =>
    cases h
    refine ⟨fun _ hi => Option.some.inj hi ▸ howner, rfl, rfl, rfl, rfl, rfl, ?_⟩
    obtain ⟨-, hbranch⟩ := Tenants.checkTenant_eq_ok hcheck
    cases branch with
    | fresh =>
      refine Or.inl ⟨?_, rfl, rfl⟩
      rw [Option.eq_none_iff_forall_ne_some]
      intro t ht
      refine hbranch ?_
      simp only [Hosted.metaDb, List.map_map, List.mem_map, Function.comp]
      exact ⟨(inp.id, t), KeyMap.get_eq_some_iff.mp ht, rfl⟩
    | recycle =>
      refine Or.inr ⟨?_, rfl, rfl⟩
      obtain ⟨row, hrow, hid, hdeleted⟩ := hbranch
      obtain ⟨⟨id, t⟩, hmem, rfl⟩ := List.mem_map.mp hrow
      obtain rfl : id = inp.id := hid
      exact ⟨t, KeyMap.get_eq_some_iff.mpr hmem, hdeleted⟩
  · cases h

/-- A step on the requests about the admins. -/
def CapWrite (cfg : Config) (s s' : State) : Prop :=
  RequestQueue.Write cfg.capDailyLimit (Meant maxCap (adminBirth s.hosted))
    (Meant maxCap (adminBirth s'.hosted)) s.capLog s.now s.capRequests s'.capLog s'.now s'.capRequests

/-- A step on the requests about the tenants. -/
def QuotaWrite (cfg : Config) (s s' : State) : Prop :=
  RequestQueue.Write cfg.quotaDailyLimit (Meant maxTier (tenantBirth s.hosted))
    (Meant maxTier (tenantBirth s'.hosted)) s.quotaLog s.now s.quotaRequests s'.quotaLog s'.now
    s'.quotaRequests

theorem Meant.congr {σ : Type} {maxAmount : Int} {birth birth' : σ → Option Nat}
    (h : birth' = birth) (subject : σ) (ask : Ask) (hmeant : Meant maxAmount birth subject ask) :
    Meant maxAmount birth' subject ask :=
  h ▸ hmeant

theorem Effect.capWrite (h : Effect cfg s l s') : CapWrite cfg s s' := by
  have hsame : ∀ i b, Meant maxCap (adminBirth s.hosted) i b →
      Meant maxCap (adminBirth s.hosted) i b := fun _ _ hmeant => hmeant
  cases h with
  | ticked seconds => exact .kept (by exact Int.le_add_of_nonneg_right (Int.natCast_nonneg _)) hsame
  | inserted role => exact .kept (Int.le_refl _) (Meant.mono fun _ _ => adminBirth_insertAdmin)
  | changed id role =>
    exact .kept (Int.le_refl _) (Meant.congr (adminBirth_updateAdmin fun _ => rfl))
  | removed id =>
    refine .purged (fun subject _ => subject == id) ?_
    intro i ask hne hmeant
    exact ⟨adminBirth_deleteAdmin (beq_eq_false_iff_ne.mp hne) hmeant.1, hmeant.2⟩
  | made inp branch _ hmake =>
    obtain ⟨ht, hhosted, -, hnow, hq, hlog, -⟩ := makeTenant_eq_ok hmake
    unfold CapWrite
    rw [hhosted, hnow, hq, hlog]
    exact .kept (Int.le_refl _) hsame
  | deleted id stamp => exact .kept (Int.le_refl _) hsame
  | ownerSet isOwner id newOwner t _ _ => exact .kept (Int.le_refl _) hsame
  | capSet isOwner subject cap =>
    exact .kept (Int.le_refl _) (Meant.congr (adminBirth_updateAdmin fun _ => rfl))
  | tierSet isOwner id tier => exact .kept (Int.le_refl _) hsame
  | capFiled caller requestedCap reason ask hfree hroom hmeant =>
    exact .filed caller ask hfree hroom hmeant hsame
  | quotaFiled caller id requestedTier reason ask _ _ _ => exact .kept (Int.le_refl _) hsame
  | capDecided caller id action r approve _ =>
    refine .decided id (statusOf approve) caller (Meant.congr ?_)
    cases approve with
    | true => exact adminBirth_updateAdmin fun _ => rfl
    | false => rfl
  | quotaDecided caller id action r approve _ =>
    refine .kept (Int.le_refl _) (Meant.congr ?_)
    cases approve with
    | true => rfl
    | false => rfl
  | pruned => exact .pruned cfg.capRetentionDays hsame

theorem Effect.quotaWrite (h : Effect cfg s l s') : QuotaWrite cfg s s' := by
  have hsame : ∀ i b, Meant maxTier (tenantBirth s.hosted) i b →
      Meant maxTier (tenantBirth s.hosted) i b := fun _ _ hmeant => hmeant
  cases h with
  | ticked seconds => exact .kept (by exact Int.le_add_of_nonneg_right (Int.natCast_nonneg _)) hsame
  | inserted role => exact .kept (Int.le_refl _) hsame
  | changed id role => exact .kept (Int.le_refl _) hsame
  | removed id =>
    exact .purged (fun _ ask => ask.requester == id) fun i ask _ hmeant =>
      Meant.congr tenantBirth_deleteAdmin i ask hmeant
  | made inp branch _ hmake =>
    obtain ⟨ht, hhosted, -, hnow, -, -, hbranch⟩ := makeTenant_eq_ok hmake
    unfold QuotaWrite
    rw [hhosted, hnow]
    obtain ⟨hfree, hq, hlog⟩ | ⟨-, hq, hlog⟩ := hbranch
    · -- a tenant that was not there has no requests
      rw [hq, hlog]
      refine .kept (Int.le_refl _) (Meant.mono ?_)
      intro id b hb
      rw [tenantBirth_putTenant_of_ne ht, hb]
      rintro rfl
      rw [tenantBirth, hfree] at hb
      cases hb
    · rw [hq, hlog]
      refine .purged (fun id _ => id == inp.id) ?_
      intro id ask hne hmeant
      refine ⟨?_, hmeant.2⟩
      rw [tenantBirth_putTenant_of_ne ht (beq_eq_false_iff_ne.mp hne)]
      exact hmeant.1
  | deleted id stamp =>
    exact .kept (Int.le_refl _) (Meant.congr (tenantBirth_softDelete s.hosted id stamp))
  | ownerSet isOwner id newOwner t hlive hadmin =>
    refine .kept (Int.le_refl _) (Meant.congr ?_)
    funext id'
    by_cases hid : id' = id
    · subst hid
      unfold tenantBirth Hosted.putTenant
      rw [KeyMap.get_set_self, (get_of_live hlive).1]
      rfl
    · exact tenantBirth_putTenant_of_ne hadmin hid
  | capSet isOwner subject cap => exact .kept (Int.le_refl _) hsame
  | tierSet isOwner id tier =>
    exact .kept (Int.le_refl _) (Meant.congr (tenantBirth_setTier s.hosted id tier))
  | capFiled caller requestedCap reason ask _ _ _ => exact .kept (Int.le_refl _) hsame
  | quotaFiled caller id requestedTier reason ask hfree hroom hmeant =>
    exact .filed id ask hfree hroom hmeant hsame
  | capDecided caller id action r approve _ =>
    refine .kept (Int.le_refl _) (Meant.congr ?_)
    cases approve with
    | true => rfl
    | false => rfl
  | quotaDecided caller id action r approve _ =>
    refine .decided id (statusOf approve) caller (Meant.congr ?_)
    cases approve with
    | true => exact tenantBirth_setTier s.hosted r.subject r.body.amount
    | false => rfl
  | pruned => exact .pruned cfg.quotaRetentionDays hsame

/-! ### Births -/

/-- Every row was born before. -/
structure BornBefore (n : Nat) (h : Hosted) : Prop where
  admins : ∀ i b, adminBirth h i = some b → b < n
  tenants : ∀ id b, tenantBirth h id = some b → b < n

theorem BornBefore.congr {n : Nat} {h h' : Hosted} (hborn : BornBefore n h)
    (hadmins : adminBirth h' = adminBirth h) (htenants : tenantBirth h' = tenantBirth h) :
    BornBefore n h' := by
  refine ⟨?_, ?_⟩
  · rw [hadmins]
    exact hborn.admins
  · rw [htenants]
    exact hborn.tenants

theorem BornBefore.insertAdmin {n : Nat} {h : Hosted} (hborn : BornBefore n h) (role : String) :
    BornBefore (n + 1) (h.insertAdmin { role, born := n }) := by
  refine ⟨?_, fun id b hb => Nat.lt_succ_of_lt (hborn.tenants id b hb)⟩
  intro i b hb
  obtain ⟨a, ha, rfl⟩ := Option.map_eq_some_iff.mp hb
  obtain hmem | heq := RowTable.mem_entries_insert.mp (RowTable.get_eq_some_iff.mp ha)
  · refine Nat.lt_succ_of_lt (hborn.admins i a.born ?_)
    rw [adminBirth, RowTable.get_eq_some_iff.mpr hmem, Option.map_some]
  · cases heq
    exact Nat.lt_succ_self n

theorem BornBefore.deleteAdmin {n : Nat} {h : Hosted} (hborn : BornBefore n h) (i : Int) :
    BornBefore n (h.deleteAdmin i) := by
  refine ⟨?_, ?_⟩
  · intro j b hb
    obtain ⟨a, ha, rfl⟩ := Option.map_eq_some_iff.mp hb
    obtain ⟨hmem, -⟩ := RowTable.mem_entries_delete.mp (RowTable.get_eq_some_iff.mp ha)
    refine hborn.admins j a.born ?_
    rw [adminBirth, RowTable.get_eq_some_iff.mpr hmem, Option.map_some]
  · rw [tenantBirth_deleteAdmin]
    exact hborn.tenants

theorem BornBefore.putTenant {n m : Nat} {h : Hosted} {id : String} {t : Tenant}
    (hborn : BornBefore n h) (ht : ∀ i, t.ownerAdminId = some i → i ∈ h.admins.ids) (hnm : n ≤ m)
    (hnew : t.born < m) : BornBefore m (h.putTenant id t ht) := by
  refine ⟨fun i b hb => (hborn.admins i b hb).trans_le hnm, ?_⟩
  intro id' b hb
  by_cases hid : id' = id
  · subst hid
    rw [tenantBirth, Hosted.putTenant, KeyMap.get_set_self] at hb
    cases hb
    exact hnew
  · rw [tenantBirth_putTenant_of_ne ht hid] at hb
    exact (hborn.tenants id' b hb).trans_le hnm

theorem Effect.bornBefore (h : Effect cfg s l s') (hborn : BornBefore s.births s.hosted) :
    BornBefore s'.births s'.hosted := by
  cases h with
  | ticked seconds => exact hborn
  | inserted role => exact hborn.insertAdmin role
  | changed id role => exact hborn.congr (adminBirth_updateAdmin fun _ => rfl) rfl
  | removed id => exact hborn.deleteAdmin id
  | made inp branch _ hmake =>
    obtain ⟨ht, hhosted, hbirths, -⟩ := makeTenant_eq_ok hmake
    rw [hhosted, hbirths]
    exact hborn.putTenant ht (Nat.le_succ _) (Nat.lt_succ_self _)
  | deleted id stamp => exact hborn.congr rfl (tenantBirth_softDelete s.hosted id stamp)
  | ownerSet isOwner id newOwner t hlive hadmin =>
    refine hborn.putTenant hadmin (Nat.le_refl _) (hborn.tenants id t.born ?_)
    rw [tenantBirth, (get_of_live hlive).1, Option.map_some]
  | capSet isOwner subject cap =>
    exact hborn.congr (adminBirth_updateAdmin fun _ => rfl) rfl
  | tierSet isOwner id tier => exact hborn.congr rfl (tenantBirth_setTier s.hosted id tier)
  | capFiled caller requestedCap reason ask _ _ _ => exact hborn
  | quotaFiled caller id requestedTier reason ask _ _ _ => exact hborn
  | capDecided caller id action r approve _ =>
    cases approve with
    | true => exact hborn.congr (adminBirth_updateAdmin fun _ => rfl) rfl
    | false => exact hborn
  | quotaDecided caller id action r approve _ =>
    cases approve with
    | true => exact hborn.congr rfl (tenantBirth_setTier s.hosted r.subject r.body.amount)
    | false => exact hborn
  | pruned => exact hborn

/-! ### Whole runs -/

/-- What holds of the plane in every state. -/
structure Inv (cfg : Config) (s : State) : Prop where
  capKept : RequestQueue.Kept cfg.capDailyLimit s.capLog s.now s.capRequests
  quotaKept : RequestQueue.Kept cfg.quotaDailyLimit s.quotaLog s.now s.quotaRequests
  capMeant : RequestQueue.About (Meant maxCap (adminBirth s.hosted)) s.capRequests
  quotaMeant : RequestQueue.About (Meant maxTier (tenantBirth s.hosted)) s.quotaRequests
  born : BornBefore s.births s.hosted

theorem bornBefore_start : BornBefore start.births start.hosted := by
  refine ⟨?_, ?_⟩
  · intro i b hb
    cases hb
  · intro id b hb
    cases hb

theorem inv_start (cfg : Config) : Inv cfg start where
  capKept := RequestQueue.kept_empty _ _
  quotaKept := RequestQueue.kept_empty _ _
  capMeant := List.forall_mem_nil _
  quotaMeant := List.forall_mem_nil _
  born := bornBefore_start

theorem Inv.step (h : Inv cfg s) (hstep : step cfg s l = some s') : Inv cfg s' := by
  have heffect := step_effect hstep
  exact {
    capKept := heffect.capWrite.keeps h.capKept
    quotaKept := heffect.quotaWrite.keeps h.quotaKept
    capMeant := heffect.capWrite.about h.capMeant
    quotaMeant := heffect.quotaWrite.about h.quotaMeant
    born := heffect.bornBefore h.born }

theorem inv_run {ls : List Label} (hrun : Transition.run (step cfg) start ls = some s) :
    Inv cfg s := by
  have hkept : ∀ {s l s'}, Inv cfg s → RequestPlane.step cfg s l = some s' → Inv cfg s' :=
    fun h hstep => h.step hstep
  exact Transition.run_invariant hkept (inv_start cfg) hrun

/-- The defaults, and a cap of one tenant. -/
def smallHost : Config where
  configuredDefault := 1
  capDailyLimit := 5
  quotaDailyLimit := 5
  capRetentionDays := 90
  quotaRetentionDays := 90

/-- The id of a member who asked for more is given to the next one, and the id of a deleted tenant is
used again. Both ask once more. -/
def keysReused : List Label :=
  [.insertAdmin "owner", .insertAdmin "member", .createCapRequest 2 2 (some " more "), .removeAdmin 2,
    .insertAdmin "member", .createCapRequest 2 3 none,
    .makeTenant { Tenants.shop with ownerAdminId := 2 }, .createQuotaRequest 2 "shop" 4 none,
    .softDeleteTenant "shop" "2026-08-02", .makeTenant { Tenants.shop with ownerAdminId := 2 },
    .createQuotaRequest 2 "shop" 2 none, .tick 86400, .pruneOnce]

/-- No admin files more cap requests in a day than the limit, and no tenant is the subject of more quota
requests, whatever is decided and pruned in between. What goes with an admin or with the use of an id
goes out of the count. -/
theorem daily_budget (cfg : Config) (ls : List Label) (s : State)
    (hrun : Transition.run (step cfg) start ls = some s) :
    (0 < cfg.capDailyLimit →
        ∀ i d, (RequestQueue.filed s.capLog i d : Int) ≤ cfg.capDailyLimit) ∧
      (0 < cfg.quotaDailyLimit →
        ∀ id d, (RequestQueue.filed s.quotaLog id d : Int) ≤ cfg.quotaDailyLimit) := by
  have hinv := inv_run hrun
  exact ⟨hinv.capKept.budget, hinv.quotaKept.budget⟩

/-- Three requests in two days, of which two are rejected. -/
def askedAgain : List Label :=
  [.insertAdmin "owner", .insertAdmin "member", .createCapRequest 2 3 none,
    .decideCapRequest true 1 1 "reject", .createCapRequest 2 4 none,
    .decideCapRequest true 1 2 "reject", .tick 86400, .pruneOnce, .createCapRequest 2 5 none]

theorem daily_budget_askedAgain :
    ∃ s, Transition.run (step smallHost) start askedAgain = some s ∧ s.capLog.length = 3 ∧
      (RequestQueue.filed s.capLog 2 0 : Int) ≤ 5 := by
  have hsome : (Transition.run (step smallHost) start askedAgain).map
      (fun s => s.capLog.length) = some 3 := by decide +kernel
  obtain ⟨s, hrun, hlength⟩ := Option.map_eq_some_iff.mp hsome
  exact ⟨s, hrun, hlength, (daily_budget smallHost askedAgain s hrun).1 (by decide) 2 0⟩

/-! ### Approvals -/

theorem mem_of_pendingRequest {σ : Type} {q : RequestQueue σ Ask} {id : Nat} {r : Request σ Ask}
    (h : pendingRequest q id = some r) : (id, r) ∈ q.entries :=
  SerialTable.mem_of_get (Option.filter_eq_some_iff.mp h).1

/-- A request is decided once. -/
theorem pendingRequest_decide {σ : Type} (q : RequestQueue σ Ask) (id : Nat) (approve : Bool)
    (decidedBy now : Int) :
    pendingRequest (q.decide id (statusOf approve) decidedBy now) id = none := by
  unfold pendingRequest RequestQueue.decide
  rw [SerialTable.get_update, Option.filter_eq_none_iff]
  intro r hr
  obtain ⟨r', -, rfl⟩ := Option.map_eq_some_iff.mp hr
  split
  · cases approve with
    | true => exact Bool.false_ne_true
    | false => exact Bool.false_ne_true
  · next hother => simpa using hother

theorem defaultCap_bounds (cfg : Config) : 0 ≤ cfg.defaultCap ∧ cfg.defaultCap ≤ maxCap := by
  unfold Config.defaultCap maxCap
  omega

/-- The bonus that is stored makes the cap the one that was asked for. -/
theorem effectiveCap_bonusForTarget (cfg : Config) {target : Int} (hpos : 1 ≤ target)
    (hmax : target ≤ maxCap) :
    effectiveCap cfg.defaultCap (bonusForTarget cfg.defaultCap target) = target := by
  obtain ⟨hdefault, hdefault'⟩ := defaultCap_bounds cfg
  unfold effectiveCap bonusForTarget Tenants.saturatingAdd saturatingSub
  unfold maxCap at hmax hdefault'
  omega

/-- The admin that a request was filed about has the cap that was asked for, which is more than
before. -/
structure CapRaised (cfg : Config) (s s' : State) (r : Request Int Ask) : Prop where
  raised : ∃ a, s.hosted.admins.get r.subject = some a ∧ a.born = r.body.born ∧
    effectiveCap cfg.defaultCap a.tenantCapBonus < r.body.amount ∧
    lookupAdminCap cfg s'.hosted r.subject = some (a.role, r.body.amount)
  others : ∀ i, i ≠ r.subject → s'.hosted.admins.get i = s.hosted.admins.get i
  tenants : s'.hosted.tenants = s.hosted.tenants

/-- The tenant that a request was filed about has the tier that was asked for. -/
structure TierRaised (s s' : State) (r : Request String Ask) : Prop where
  raised : ∃ t, s.hosted.live r.subject = some t ∧ t.born = r.body.born ∧
    t.quotaTier < r.body.amount ∧
    s'.hosted.live r.subject = some { t with quotaTier := r.body.amount }
  others : ∀ id, id ≠ r.subject → s'.hosted.tenants.get id = s.hosted.tenants.get id
  admins : s'.hosted.admins = s.hosted.admins

theorem capRaised_of_approval {caller : Int} {id : Nat} {isOwner : Bool} (hinv : Inv cfg s)
    (hstep : step cfg s (.decideCapRequest isOwner caller id "approve") = some s') :
    isOwner = true ∧ ∃ r, pendingRequest s.capRequests id = some r ∧
      pendingRequest s'.capRequests id = none ∧ CapRaised cfg s s' r := by
  cases step_effect hstep with
  | capDecided _ _ _ r approve hdecide =>
    obtain ⟨hpending, happrove, hlevel⟩ := decideRequest_eq_ok hdecide
    obtain rfl : approve = true := happrove.mpr rfl
    obtain ⟨level, hlevel, hlt⟩ := hlevel rfl
    obtain ⟨hborn, hpos, hmax⟩ := hinv.capMeant _ (mem_of_pendingRequest hpending)
    refine ⟨rfl, r, hpending, pendingRequest_decide _ _ _ _ _, ?_, ?_, rfl⟩
    · obtain ⟨a, ha, hab⟩ := Option.map_eq_some_iff.mp hborn
      have hcap : effectiveCap cfg.defaultCap a.tenantCapBonus = level := by
        rw [lookupAdminCap, ha] at hlevel
        exact Option.some.inj hlevel
      refine ⟨a, ha, hab, hcap ▸ hlt, ?_⟩
      rw [lookupAdminCap, if_pos rfl, Hosted.updateAdmin, RowTable.get_update, ha, Option.map_some,
        Option.map_some, if_pos (beq_self_eq_true _), effectiveCap_bonusForTarget cfg hpos hmax]
    · intro i hne
      dsimp only
      rw [if_pos rfl, Hosted.updateAdmin, RowTable.get_update, beq_false_of_ne hne]
      exact Option.map_id'

theorem tierRaised_of_approval {caller : Int} {id : Nat} (hinv : Inv cfg s)
    (hstep : step cfg s (.decideQuotaRequest caller id "approve") = some s') :
    ∃ r, pendingRequest s.quotaRequests id = some r ∧
      pendingRequest s'.quotaRequests id = none ∧ TierRaised s s' r := by
  cases step_effect hstep with
  | quotaDecided _ _ _ r approve hdecide =>
    obtain ⟨hpending, happrove, hlevel⟩ := decideRequest_eq_ok hdecide
    obtain rfl : approve = true := happrove.mpr rfl
    obtain ⟨level, hlevel, hlt⟩ := hlevel rfl
    obtain ⟨hborn, -⟩ := hinv.quotaMeant _ (mem_of_pendingRequest hpending)
    obtain ⟨t, hlive, rfl⟩ := Option.map_eq_some_iff.mp hlevel
    obtain ⟨hget, hdeleted⟩ := get_of_live hlive
    refine ⟨r, hpending, pendingRequest_decide _ _ _ _ _, ⟨t, hlive, ?_, hlt, ?_⟩, ?_, rfl⟩
    · rw [tenantBirth, hget, Option.map_some] at hborn
      exact Option.some.inj hborn
    · dsimp only
      rw [if_pos rfl, Hosted.live, Hosted.setTier, Hosted.updateTenant, KeyMap.get_mapValues, hget,
        Option.map_some, if_pos ⟨rfl, hdeleted⟩, Option.filter_some, if_pos]
      rw [hdeleted]
      rfl
    · intro id' hne
      dsimp only
      rw [if_pos rfl, Hosted.setTier, Hosted.updateTenant, KeyMap.get_mapValues]
      refine (Option.map_congr fun t' _ => if_neg fun hcond => hne hcond.1).trans ?_
      exact Option.map_id'

/-- An approval gives the row that the request was filed about what was asked for, which is more than
it has, and changes no other row. It is the last decision on the request. -/
theorem approvals_raise (cfg : Config) (ls : List Label) (s : State)
    (hrun : Transition.run (step cfg) start ls = some s) :
    (∀ isOwner caller id s',
        step cfg s (.decideCapRequest isOwner caller id "approve") = some s' →
          isOwner = true ∧ ∃ r, pendingRequest s.capRequests id = some r ∧
            pendingRequest s'.capRequests id = none ∧ CapRaised cfg s s' r) ∧
      ∀ caller id s', step cfg s (.decideQuotaRequest caller id "approve") = some s' →
        ∃ r, pendingRequest s.quotaRequests id = some r ∧
          pendingRequest s'.quotaRequests id = none ∧ TierRaised s s' r := by
  have hinv := inv_run hrun
  exact ⟨fun _ _ _ _ hstep => capRaised_of_approval hinv hstep,
    fun _ _ _ hstep => tierRaised_of_approval hinv hstep⟩

theorem approvals_raise_reused :
    ∃ s s', Transition.run (step smallHost) start keysReused = some s ∧
      step smallHost s (.decideCapRequest true 1 2 "approve") = some s' ∧
      ∃ r, CapRaised smallHost s s' r := by
  have hsome : ((Transition.run (step smallHost) start keysReused).bind fun s =>
      step smallHost s (.decideCapRequest true 1 2 "approve")).isSome = true := by decide +kernel
  obtain ⟨s', hs'⟩ := Option.isSome_iff_exists.mp hsome
  obtain ⟨s, hrun, hstep⟩ := Option.bind_eq_some_iff.mp hs'
  obtain ⟨-, r, -, -, hraised⟩ :=
    (approvals_raise smallHost keysReused s hrun).1 true 1 2 s' hstep
  exact ⟨s, s', hrun, hstep, r, hraised⟩

end RequestPlane

end Drust
