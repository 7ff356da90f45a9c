import Drust.Tenant.RoomPolicy
import Mathlib.Tactic.Ring

/-!
# How many publishes a bucket lets through

While the readings that reach a bucket do not go back, what comes into it in all is its
capacity and the rate times the time from its first reading to its last. The potential of a
bucket, which is its tokens and what may still come in up to the end of the interval, pays for
every token that is taken (`admitted_le_potential`).

A reading that goes back moves the stamp back with it, and the time up to the next reading is
counted again.
-/

namespace Drust

namespace RoomPolicy

open Signed64 Transition

/-! ### What the claim of a limit is -/

/-- The call takes a token of the tenant. -/
def admits (tenant : String) (b : PublishBucket) : Label → Bool
  | .enter _ _ => false
  | .consume t nowMs => t = tenant ∧ verdict b t nowMs = some (.ok ())

/-- The number of publishes of the tenant that a run lets through. -/
def admitted (tenant : String) : PublishBucket → List Label → Nat
  | _, [] => 0
  | b, l :: ls =>
    (if admits tenant b l then 1 else 0) +
      match step b l with
      | some b' => admitted tenant b' ls
      | none => 0

def Label.reading (tenant : String) : Label → Option Nat
  | .enter t nowMs | .consume t nowMs => if t = tenant then some nowMs else none

/-- A call of the tenant that comes as late as the last one was told finds a token. -/
def RetrySucceeds (tenant : String) (b₀ : PublishBucket) (ls : List Label) : Prop :=
  ∀ ls₁ nowMs ls₂ nowMs' ls₃ b₁ b₂ d,
    ls = ls₁ ++ .consume tenant nowMs :: (ls₂ ++ .consume tenant nowMs' :: ls₃) →
    run step b₀ ls₁ = some b₁ → verdict b₁ tenant nowMs = some (.error d) →
    run step b₁ (.consume tenant nowMs :: ls₂) = some b₂ →
    (∀ n, .consume tenant n ∉ ls₂) → nowMs + d ≤ nowMs' →
    verdict b₂ tenant nowMs' = some (.ok ())

/-- The reading does not go back behind the stamp of its bucket, and what has come in since
fits beside the tokens that are there. -/
def InOrder (tenant : String) (b : PublishBucket) : Label → Prop
  | .enter _ _ => True
  | .consume t nowMs => t = tenant → ∀ s, b.inner t = some s →
      s.lastRefillMs ≤ nowMs ∧
      s.tokens + (nowMs - s.lastRefillMs : Nat) * b.maxTokens ≤ maxValue

/-! ### One bucket -/

section Bucket

variable {m : Int} {s : BucketState} {nowMs : Nat}

/-- The number of milliseconds is not too large for the sign. -/
theorem elapsedMs_of_fits (hm : 0 < m) (hs : 0 ≤ s.tokens)
    (h : s.tokens + (nowMs - s.lastRefillMs : Nat) * m ≤ maxValue) :
    elapsedMs s nowMs = (nowMs - s.lastRefillMs : Nat) := by
  refine wrap_of_fits ⟨?_, ?_⟩
  · simp only [minValue]
    omega
  · have hle : ((nowMs - s.lastRefillMs : Nat) : Int) * 1 ≤ (nowMs - s.lastRefillMs : Nat) * m :=
      Int.mul_le_mul_of_nonneg_left (by omega) (by omega)
    omega

/-- What a call in order finds in a bucket that is between empty and full. -/
theorem consume_in_order (hm : 0 < m) (hcapacity : m * 1000 ≤ maxValue) (hs : InRange m s)
    (h : s.tokens + (nowMs - s.lastRefillMs : Nat) * m ≤ maxValue) :
    NoOverflow m s nowMs ∧ InRange m (consume m s nowMs).2 ∧ afterRefill m s nowMs =
      min (s.tokens + (nowMs - s.lastRefillMs : Nat) * m) (m * 1000) := by
  have hnonneg := hs.nonneg
  have helapsed := elapsedMs_of_fits hm hnonneg h
  have hproduct : 0 ≤ ((nowMs - s.lastRefillMs : Nat) : Int) * m :=
    Int.mul_nonneg (by omega) (by omega)
  have hroom : Room m s nowMs := by
    have hlarge : 2000 ≤ maxValue := by decide
    simp only [Room, helapsed]
    refine ⟨by omega, .inr h, fun _ => ?_⟩
    omega
  have hfull : capacityScaled m = m * 1000 := by
    refine saturate_of_fits ⟨?_, hcapacity⟩
    simp only [minValue]
    omega
  obtain ⟨hsafe, hrange⟩ := safe_of_room hm hs hroom
  obtain ⟨-, hafter⟩ := afterRefill_of_room hs hroom
  rw [helapsed, hfull] at hafter
  exact ⟨hsafe, hrange, hafter⟩

theorem consume_fst (m : Int) (s : BucketState) (nowMs : Nat) :
    (consume m s nowMs).1 = if afterRefill m s nowMs < 1000 then
      .error (max (waitMs m (afterRefill m s nowMs)) 1).toNat else .ok () := by
  rw [consume]
  split
  · rfl
  · rfl

/-- The tokens and the time that is left pay for the token that is taken. -/
theorem consume_potential (hm : 0 < m) (hcapacity : m * 1000 ≤ maxValue) (hs : InRange m s)
    (horder : s.lastRefillMs ≤ nowMs)
    (h : s.tokens + (nowMs - s.lastRefillMs : Nat) * m ≤ maxValue) (t₁ : Nat) :
    (if (consume m s nowMs).1 = .ok () then 1000 else 0) + (consume m s nowMs).2.tokens +
        m * (t₁ - nowMs) ≤ s.tokens + m * (t₁ - s.lastRefillMs) := by
  obtain ⟨hsafe, -, hafter⟩ := consume_in_order hm hcapacity hs h
  have hle : afterRefill m s nowMs ≤ s.tokens + (nowMs - s.lastRefillMs : Nat) * m := by
    rw [hafter]
    exact min_le_left _ _
  have hsplit : m * (t₁ - s.lastRefillMs) =
      (nowMs - s.lastRefillMs : Nat) * m + m * (t₁ - nowMs : Int) := by
    rw [Nat.cast_sub horder]
    ring
  rw [consume_tokens, consume_fst, hsplit]
  by_cases hlt : afterRefill m s nowMs < 1000
  · rw [if_pos hlt, if_pos hlt, if_neg nofun]
    omega
  · rw [if_neg hlt, if_neg hlt, if_pos rfl, wrap_of_fits (hsafe.taken (by omega))]
    omega

/-- A refused call is told a time in which the deficit comes in. -/
theorem wait_suffices (hm : 0 < m) (hsafe : NoOverflow m s nowMs) {d : Nat}
    (h : (consume m s nowMs).1 = .error d) :
    afterRefill m s nowMs < 1000 ∧ 1000 - afterRefill m s nowMs ≤ d * m := by
  rw [consume_fst] at h
  split at h
  · next hlt =>
    refine ⟨hlt, ?_⟩
    have hd : d = (max (waitMs m (afterRefill m s nowMs)) 1).toNat := (Except.error.inj h).symm
    generalize hx : 1000 - afterRefill m s nowMs = x at *
    have hwait : waitMs m (afterRefill m s nowMs) = (x + m - 1) / m := by
      have hfits := hsafe.deficit hlt
      have hsum := hsafe.wait hlt
      have hpred := hsafe.waitPred hlt
      rw [wrap_of_fits hfits] at hsum hpred
      rw [wrap_of_fits hsum] at hpred
      rw [waitMs, wrap_of_fits hfits, wrap_of_fits hsum, wrap_of_fits hpred, hx]
      exact Int.tdiv_eq_ediv_of_nonneg (by omega)
    -- rounded up
    have hceil : x ≤ m * ((x + m - 1) / m) := by
      have hlt := Int.lt_mul_ediv_self_add (x := x + m - 1) hm
      omega
    have hle : (x + m - 1) / m ≤ d := by
      rw [hd, hwait]
      omega
    calc x ≤ m * ((x + m - 1) / m) := hceil
      _ ≤ m * d := Int.mul_le_mul_of_nonneg_left hle (by omega)
      _ = d * m := Int.mul_comm m d
  · cases h

end Bucket

/-! ### One tenant among others -/

def Label.tenant : Label → String
  | .enter tenant _ | .consume tenant _ => tenant

/-- The bucket of the tenant is between empty and full, with a stamp from the interval. -/
structure Good (tenant : String) (m : Int) (t₀ t₁ : Nat) (b : PublishBucket) : Prop where
  rate : b.maxTokens = m
  range : ∀ s, b.inner tenant = some s → InRange m s
  stamp : ∀ s, b.inner tenant = some s → t₀ ≤ s.lastRefillMs ∧ s.lastRefillMs ≤ t₁

/-- The readings of the tenant come in order and from the interval. -/
def Orderly (tenant : String) (t₀ t₁ : Nat) (b : PublishBucket) (l : Label) : Prop :=
  InOrder tenant b l ∧ ∀ n, l.reading tenant = some n → t₀ ≤ n ∧ n ≤ t₁

/-- What the tenant may still get: its tokens, and what comes in up to the end. -/
def potential (tenant : String) (t₀ t₁ : Nat) (b : PublishBucket) : Int :=
  match b.inner tenant with
  | some s => s.tokens + b.maxTokens * (t₁ - s.lastRefillMs)
  | none => b.maxTokens * 1000 + b.maxTokens * (t₁ - t₀)

section Tenant

variable {b b' : PublishBucket} {tenant : String} {m : Int} {t₀ t₁ : Nat} {l : Label}

theorem step_frame (h : step b l = some b') (hl : l.tenant ≠ tenant) :
    b'.inner tenant = b.inner tenant := by
  cases l with
  | enter t nowMs =>
    obtain rfl := Option.some.inj h
    split
    · rfl
    · unfold PublishBucket.entry
      split
      · rfl
      · exact setBucket_of_ne b (Ne.symm hl) _
  | consume t nowMs =>
    by_cases hm : b.maxTokens = 0
    · rw [step, if_pos hm] at h
      obtain rfl := Option.some.inj h
      rfl
    · obtain ⟨s, -, rfl⟩ := step_consume h hm
      exact setBucket_of_ne b (Ne.symm hl) _

theorem admits_of_ne (hl : l.tenant ≠ tenant) : admits tenant b l = false := by
  cases l with
  | enter => rfl
  | consume t nowMs => exact decide_eq_false (fun h => hl h.1)

theorem good_new (hm : 0 < m) : Good tenant m t₀ t₁ (.new m) where
  rate := max_eq_left (by omega)
  range := nofun
  stamp := nofun

/-- A step that leaves the tenant's bucket alone. -/
theorem good_of_frame (hs : Good tenant m t₀ t₁ b) (hrate : b'.maxTokens = b.maxTokens)
    (h : b'.inner tenant = b.inner tenant) :
    Good tenant m t₀ t₁ b' ∧ potential tenant t₀ t₁ b' = potential tenant t₀ t₁ b := by
  refine ⟨⟨hrate.trans hs.rate, h ▸ hs.range, h ▸ hs.stamp⟩, ?_⟩
  rw [potential, potential, h, hrate]

/-- One step: the potential pays for what is admitted. -/
theorem good_step (hm : 0 < m) (hcapacity : m * 1000 ≤ maxValue)
    (hs : Good tenant m t₀ t₁ b) (hl : Orderly tenant t₀ t₁ b l) (h : step b l = some b') :
    Good tenant m t₀ t₁ b' ∧ (if admits tenant b l then 1000 else 0) +
      potential tenant t₀ t₁ b' ≤ potential tenant t₀ t₁ b := by
  have hrate := step_maxTokens h
  have hpos : b.maxTokens ≠ 0 := by
    rw [hs.rate]
    omega
  by_cases htenant : l.tenant = tenant
  · cases l with
    | enter t nowMs =>
      obtain rfl : t = tenant := htenant
      rw [show admits t b (.enter t nowMs) = false from rfl, if_neg Bool.false_ne_true, zero_add]
      cases hb : b.inner t with
      | some s =>
        -- the bucket is there
        have hsame : b' = b := by
          rw [step, if_neg hpos, PublishBucket.entry, hb] at h
          exact (Option.some.inj h).symm
        rw [hsame]
        exact ⟨hs, le_refl _⟩
      | none =>
        have hfresh : b' = setBucket b t ⟨capacityScaled b.maxTokens, nowMs⟩ := by
          rw [step, if_neg hpos, PublishBucket.entry, hb] at h
          exact (Option.some.inj h).symm
        have hfull : capacityScaled m = m * 1000 := by
          refine saturate_of_fits ⟨?_, hcapacity⟩
          simp only [minValue]
          omega
        obtain ⟨hlow, hhigh⟩ := hl.2 nowMs (if_pos rfl)
        have hbucket : b'.inner t = some ⟨m * 1000, nowMs⟩ := by
          rw [hfresh, setBucket_self, hs.rate, hfull]
        refine ⟨⟨hrate.trans hs.rate, ?_, ?_⟩, ?_⟩
        · intro s hs'
          obtain rfl := Option.some.inj (hbucket.symm.trans hs')
          refine ⟨?_, ?_⟩
          · show 0 ≤ m * 1000
            omega
          · show m * 1000 ≤ capacityScaled m
            rw [hfull]
        · intro s hs'
          obtain rfl := Option.some.inj (hbucket.symm.trans hs')
          exact ⟨hlow, hhigh⟩
        · have hless : m * (t₁ - nowMs : Int) ≤ m * (t₁ - t₀) :=
            Int.mul_le_mul_of_nonneg_left (by omega) (by omega)
          rw [potential, potential, hbucket, hb, hrate, hs.rate]
          show m * 1000 + m * (t₁ - nowMs : Int) ≤ m * 1000 + m * (t₁ - t₀)
          omega
    | consume t nowMs =>
      obtain rfl : t = tenant := htenant
      obtain ⟨s, hb, hb'⟩ := step_consume h hpos
      obtain ⟨horder, hfits⟩ := hl.1 rfl s hb
      obtain ⟨hlow, hhigh⟩ := hl.2 nowMs (if_pos rfl)
      rw [hs.rate] at hfits hb'
      obtain ⟨-, hrange, -⟩ := consume_in_order hm hcapacity (hs.range s hb) hfits
      have hbucket : b'.inner t = some (consume m s nowMs).2 := by
        rw [hb', setBucket_self]
      refine ⟨⟨hrate.trans hs.rate, ?_, ?_⟩, ?_⟩
      · intro s' hs'
        obtain rfl := Option.some.inj (hbucket.symm.trans hs')
        exact hrange
      · intro s' hs'
        obtain rfl := Option.some.inj (hbucket.symm.trans hs')
        rw [consume_lastRefillMs]
        exact ⟨hlow, hhigh⟩
      · have hpays := consume_potential hm hcapacity (hs.range s hb) horder hfits t₁
        have hadmits : admits t b (.consume t nowMs) = true ↔ (consume m s nowMs).1 = .ok () := by
          rw [admits, verdict, if_neg hpos, hb, hs.rate, decide_eq_true_iff]
          exact ⟨fun h => Option.some.inj h.2, fun h => ⟨rfl, congrArg some h⟩⟩
        rw [potential, potential, hbucket, hb, hrate, hs.rate]
        simp only [hadmits, consume_lastRefillMs]
        omega
  · obtain ⟨hgood, hsame⟩ := good_of_frame hs hrate (step_frame h htenant)
    rw [admits_of_ne htenant, if_neg Bool.false_ne_true, zero_add, hsame]
    exact ⟨hgood, le_refl _⟩

theorem potential_nonneg (hm : 0 < m) (ht : t₀ ≤ t₁) (hs : Good tenant m t₀ t₁ b) :
    0 ≤ potential tenant t₀ t₁ b := by
  rw [potential, hs.rate]
  split
  · next s hb =>
    have hrest : 0 ≤ m * (t₁ - s.lastRefillMs : Int) :=
      Int.mul_nonneg (by omega) (by have := (hs.stamp s hb).2; omega)
    have htokens := (hs.range s hb).nonneg
    omega
  · have hrest : 0 ≤ m * (t₁ - t₀ : Int) := Int.mul_nonneg (by omega) (by omega)
    omega

/-- A whole run: what is admitted was there or came in. -/
theorem admitted_le_potential (hm : 0 < m) (hcapacity : m * 1000 ≤ maxValue) (ht : t₀ ≤ t₁)
    {ls : List Label} : ∀ {b}, Good tenant m t₀ t₁ b →
      Along step (Orderly tenant t₀ t₁) b ls →
      1000 * (admitted tenant b ls : Int) ≤ potential tenant t₀ t₁ b := by
  induction ls with
  | nil => exact fun hs _ => potential_nonneg hm ht hs
  | cons l ls ih =>
    intro b hs halong
    obtain ⟨hl, halong⟩ := halong
    rw [admitted]
    cases hstep : step b l with
    | none =>
      -- no bucket, so nothing is admitted either
      have hzero : admits tenant b l = false := by
        cases l with
        | enter => rfl
        | consume t nowMs =>
          refine decide_eq_false (fun h => ?_)
          have hverdict := h.2
          rw [step] at hstep
          split at hstep
          · cases hstep
          · next hpos =>
            rw [verdict, if_neg hpos, Option.map_eq_none_iff.mp hstep] at hverdict
            cases hverdict
      rw [hzero]
      exact potential_nonneg hm ht hs
    | some b' =>
      rw [hstep] at halong
      obtain ⟨hs', hpays⟩ := good_step hm hcapacity hs hl hstep
      have hrest := ih hs' halong
      simp only
      split at hpays
      · next hadmits =>
        rw [if_pos hadmits]
        push_cast
        omega
      · next hadmits =>
        rw [if_neg hadmits]
        push_cast
        omega

/-- A bucket that is there is changed by the calls that have its lock only. -/
theorem run_bucket {ls : List Label} : ∀ {b b'}, b.maxTokens ≠ 0 →
    run step b ls = some b' → (∀ n, .consume tenant n ∉ ls) → ∀ s, b.inner tenant = some s →
    b'.inner tenant = some s := by
  induction ls with
  | nil =>
    intro b b' _ hrun _ s hs
    obtain rfl := Option.some.inj hrun
    exact hs
  | cons l ls ih =>
    intro b b' hpos hrun hnone s hs
    obtain ⟨c, hc, hrun⟩ := run_cons hrun
    have hc' : c.inner tenant = some s := by
      by_cases htenant : l.tenant = tenant
      · cases l with
        | enter t nowMs =>
          obtain rfl : t = tenant := htenant
          rw [step, if_neg hpos, PublishBucket.entry, hs] at hc
          obtain rfl := Option.some.inj hc
          exact hs
        | consume t nowMs =>
          obtain rfl : t = tenant := htenant
          exact absurd List.mem_cons_self (hnone nowMs)
      · rw [step_frame hc htenant, hs]
    have hpos' : c.maxTokens ≠ 0 := by
      rw [step_maxTokens hc]
      exact hpos
    exact ih hpos' hrun (fun n hn => hnone n (List.mem_cons_of_mem _ hn)) s hc'

theorem retrySucceeds_of_orderly (hm : 0 < m) (hcapacity : m * 1000 ≤ maxValue)
    (hs : Good tenant m t₀ t₁ b) {ls : List Label}
    (halong : Along step (Orderly tenant t₀ t₁) b ls) : RetrySucceeds tenant b ls := by
  rintro ls₁ nowMs ls₂ nowMs' ls₃ b₁ b₂ d rfl hrun₁ hrefused hrun₂ hnone hlater
  have hgood₁ : Good tenant m t₀ t₁ b₁ :=
    Along.invariant (fun hs hl h => (good_step hm hcapacity hs hl h).1) hs
      halong.of_append_left hrun₁
  have hgood₂ : Good tenant m t₀ t₁ b₂ :=
    Along.invariant (fun hs hl h => (good_step hm hcapacity hs hl h).1) hgood₁
      (halong.of_append hrun₁).of_append_left hrun₂
  have hpos₁ : b₁.maxTokens ≠ 0 := by
    rw [hgood₁.rate]
    omega
  have hpos₂ : b₂.maxTokens ≠ 0 := by
    rw [hgood₂.rate]
    omega
  -- the two calls and what they find
  obtain ⟨⟨hl, -⟩, -⟩ := halong.of_append hrun₁
  obtain ⟨⟨hl', -⟩, -⟩ := (halong.of_append hrun₁).of_append hrun₂
  obtain ⟨c, hc, hrun⟩ := run_cons hrun₂
  obtain ⟨s, hb₁, rfl⟩ := step_consume hc hpos₁
  rw [verdict, if_neg hpos₁, hb₁] at hrefused
  have hd : (consume m s nowMs).1 = .error d := by
    rw [← hgood₁.rate]
    exact Option.some.inj hrefused
  have hb₂ : b₂.inner tenant = some (consume m s nowMs).2 := by
    have hpos : (setBucket b₁ tenant (consume m s nowMs).2).maxTokens ≠ 0 := hpos₁
    rw [hgood₁.rate] at hrun
    exact run_bucket hpos hrun hnone _ (setBucket_self ..)
  obtain ⟨horder, hfits⟩ := hl rfl s hb₁
  rw [hgood₁.rate] at hfits
  obtain ⟨hsafe, hrange, -⟩ := consume_in_order hm hcapacity (hgood₁.range s hb₁) hfits
  obtain ⟨hlt, hdeficit⟩ := wait_suffices hm hsafe hd
  -- by then the deficit has come in
  obtain ⟨-, hfits'⟩ := hl' rfl _ hb₂
  rw [hgood₂.rate] at hfits'
  obtain ⟨-, -, hafter⟩ := consume_in_order hm hcapacity hrange hfits'
  rw [consume_tokens, if_pos hlt, consume_lastRefillMs] at hafter
  have hrefill : (d : Int) * m ≤ (nowMs' - nowMs : Nat) * m :=
    Int.mul_le_mul_of_nonneg_right (by omega) (by omega)
  have hone : ¬ afterRefill m (consume m s nowMs).2 nowMs' < 1000 := by
    rw [hafter]
    omega
  rw [verdict, if_neg hpos₂, hb₂, hgood₂.rate]
  show some (consume m (consume m s nowMs).2 nowMs').1 = _
  rw [consume_fst, if_neg hone]

end Tenant

/-- In a run whose calls of the tenant have readings from an interval, none behind the stamp
that it finds, the tenant publishes at most its capacity and the rate times the interval, and
whoever waits as long as it was told gets through. -/
theorem publishRate_of_inOrder {m : Int} {tenant : String} {t₀ t₁ : Nat} {ls : List Label}
    (hm : 0 < m) (hcapacity : m * 1000 ≤ maxValue) (ht : t₀ ≤ t₁)
    (hreadings : ∀ l ∈ ls, ∀ n, l.reading tenant = some n → t₀ ≤ n ∧ n ≤ t₁)
    (horder : Along step (InOrder tenant) (.new m) ls) :
    1000 * (admitted tenant (.new m) ls : Int) ≤ 1000 * m + m * (t₁ - t₀) ∧
      RetrySucceeds tenant (.new m) ls := by
  have hgood : Good tenant m t₀ t₁ (.new m) := good_new hm
  have horderly : Along step (Orderly tenant t₀ t₁) (.new m) ls :=
    horder.and (Along.of_forall (fun l hl _ => hreadings l hl) _)
  refine ⟨?_, retrySucceeds_of_orderly hm hcapacity hgood horderly⟩
  have hrate : (PublishBucket.new m).maxTokens = m := hgood.rate
  calc 1000 * (admitted tenant (.new m) ls : Int)
      ≤ potential tenant t₀ t₁ (.new m) := admitted_le_potential hm hcapacity ht hgood horderly
    _ = m * 1000 + m * (t₁ - t₀) := by
      show (PublishBucket.new m).maxTokens * 1000 + (PublishBucket.new m).maxTokens * _ = _
      rw [hrate]
    _ = 1000 * m + m * (t₁ - t₀) := by rw [Int.mul_comm m 1000]

/-- Three calls within five milliseconds at a rate of two: the third one has to wait. -/
theorem publishRate_of_inOrder_two : 1000 * (admitted "t" (.new 2) [.enter "t" 0,
      .consume "t" 0, .consume "t" 1, .consume "t" 5] : Int) ≤ 1000 * 2 + 2 * (5 - 0) ∧
    RetrySucceeds "t" (.new 2) [.enter "t" 0, .consume "t" 0, .consume "t" 1,
      .consume "t" 5] := by
  refine @publishRate_of_inOrder 2 "t" 0 5 _ (by decide) (by decide) (by decide) ?_ ?_
  · intro l hl n hn
    simp only [List.mem_cons, List.not_mem_nil, or_false] at hl
    obtain rfl | rfl | rfl | rfl := hl
    all_goals
      simp only [Label.reading, if_true, Option.some.injEq] at hn
      omega
  · refine ⟨trivial, ?_, ?_, ?_, trivial⟩
    all_goals
      intro _ s hs
      obtain rfl := Option.some.inj (hs.symm.trans rfl)
      decide +kernel

/-- Readings that go back and forth: within one second at a rate of one, three publishes get
through. -/
theorem publishRate_exceeded : ∃ ls, (∀ l ∈ ls, ∀ n, l.reading "t" = some n → 0 ≤ n ∧ n ≤ 1000) ∧
    (run step (.new 1) ls).isSome = true ∧
    ¬ 1000 * (admitted "t" (.new 1) ls : Int) ≤ 1000 * 1 + 1 * (1000 - 0) := by
  refine ⟨[.enter "t" 0, .consume "t" 0, .consume "t" 1000, .consume "t" 0, .consume "t" 1000],
    ?_, by decide +kernel, by decide +kernel⟩
  intro l hl n hn
  simp only [List.mem_cons, List.not_mem_nil, or_false] at hl
  obtain rfl | rfl | rfl | rfl | rfl := hl
  all_goals
    simp only [Label.reading, if_true, Option.some.injEq] at hn
    omega

end RoomPolicy

end Drust
