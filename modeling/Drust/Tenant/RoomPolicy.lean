import Drust.Lib.Signed64
import Drust.Lib.Transition
import Mathlib.Logic.Function.Basic

/-!
# The rate limit of room publishes

Each tenant has a bucket of tokens, kept in thousandths. A publish reads the clock, makes the
bucket if there is none, and then, under the bucket's lock, adds what has come in since the
last reading and takes a token. A publish without one is told how long to wait.

Readings are taken before the lock, so they reach a bucket in any order, and the clock itself
may be set. Sums and differences of 64 bits wrap around, as in a release build; only the
products saturate. `publishBucket_safe_iff` says when no sum wraps.
-/

namespace Drust

namespace RoomPolicy

open Signed64 Transition

structure BucketState where
  /-- In thousandths of a token. -/
  tokens : Int
  lastRefillMs : Nat
  deriving DecidableEq, Repr

structure PublishBucket where
  inner : String → Option BucketState
  maxTokens : Int

/-! ### One call -/

def PublishBucket.new (maxTokens : Int) : PublishBucket where
  inner := fun _ => none
  maxTokens := max maxTokens 0

def capacityScaled (maxTokens : Int) : Int :=
  saturatingMul maxTokens 1000

def elapsedMs (s : BucketState) (nowMs : Nat) : Int :=
  ofUnsigned (nowMs - s.lastRefillMs)

def refillScaled (maxTokens : Int) (s : BucketState) (nowMs : Nat) : Int :=
  saturatingMul (elapsedMs s nowMs) maxTokens

def afterRefill (maxTokens : Int) (s : BucketState) (nowMs : Nat) : Int :=
  min (wrap (s.tokens + refillScaled maxTokens s nowMs)) (capacityScaled maxTokens)

/-- The time after which a token is there, rounded up. -/
def waitMs (maxTokens after : Int) : Int :=
  (wrap (wrap (wrap (1000 - after) + maxTokens) - 1)).tdiv maxTokens

/-- What is done under the lock: a wait in milliseconds, or a token is taken. -/
def consume (maxTokens : Int) (s : BucketState) (nowMs : Nat) :
    Except Nat Unit × BucketState :=
  let after := afterRefill maxTokens s nowMs
  if after < 1000 then
    (.error (max (waitMs maxTokens after) 1).toNat, { tokens := after, lastRefillMs := nowMs })
  else (.ok (), { tokens := wrap (after - 1000), lastRefillMs := nowMs })

/-! ### Calls side by side -/

def setBucket (b : PublishBucket) (tenant : String) (s : BucketState) : PublishBucket :=
  { b with inner := Function.update b.inner tenant (some s) }

@[simp] theorem setBucket_self (b : PublishBucket) (tenant : String) (s : BucketState) :
    (setBucket b tenant s).inner tenant = some s :=
  Function.update_self ..

theorem setBucket_of_ne (b : PublishBucket) {tenant t : String} (h : t ≠ tenant)
    (s : BucketState) : (setBucket b tenant s).inner t = b.inner t :=
  Function.update_of_ne h ..

def PublishBucket.entry (b : PublishBucket) (tenant : String) (nowMs : Nat) : PublishBucket :=
  match b.inner tenant with
  | some _ => b
  | none =>
    setBucket b tenant { tokens := capacityScaled b.maxTokens, lastRefillMs := nowMs }

inductive Label where
  /-- A call with this reading looks its bucket up. -/
  | enter (tenant : String) (nowMs : Nat)
  /-- A call with this reading has the lock. -/
  | consume (tenant : String) (nowMs : Nat)
  deriving DecidableEq, Repr

/-- A rate of zero is no limit, and no bucket is touched. -/
def step (b : PublishBucket) : Label → Option PublishBucket
  | .enter tenant nowMs => some (if b.maxTokens = 0 then b else b.entry tenant nowMs)
  | .consume tenant nowMs =>
    if b.maxTokens = 0 then some b
    else
      (b.inner tenant).map (fun s => setBucket b tenant (consume b.maxTokens s nowMs).2)

/-- What the call is answered. -/
def verdict (b : PublishBucket) (tenant : String) (nowMs : Nat) : Option (Except Nat Unit) :=
  if b.maxTokens = 0 then some (.ok ())
  else (b.inner tenant).map (fun s => (consume b.maxTokens s nowMs).1)

section Steps

variable {b b' : PublishBucket} {tenant : String} {nowMs : Nat}

theorem entry_maxTokens (b : PublishBucket) (tenant : String) (nowMs : Nat) :
    (b.entry tenant nowMs).maxTokens = b.maxTokens := by
  unfold PublishBucket.entry
  split
  · rfl
  · rfl

theorem step_maxTokens {l : Label} (h : step b l = some b') : b'.maxTokens = b.maxTokens := by
  cases l with
  | enter tenant nowMs =>
    obtain rfl := Option.some.inj h
    split
    · rfl
    · exact entry_maxTokens b tenant nowMs
  | consume tenant nowMs =>
    rw [step] at h
    split at h
    · obtain rfl := Option.some.inj h
      rfl
    · obtain ⟨s, -, rfl⟩ := Option.map_eq_some_iff.mp h
      rfl

/-- A lookup makes at most the bucket of its tenant, and a full one. -/
theorem step_enter (h : step b (.enter tenant nowMs) = some b') {t : String} {s : BucketState}
    (hs : b'.inner t = some s) : b.inner t = some s ∨
      t = tenant ∧ b.inner t = none ∧ s = ⟨capacityScaled b.maxTokens, nowMs⟩ := by
  obtain rfl := Option.some.inj h
  split at hs
  · exact .inl hs
  · unfold PublishBucket.entry at hs
    split at hs
    · exact .inl hs
    · next hnone =>
      obtain rfl | ht := eq_or_ne t tenant
      · rw [setBucket_self] at hs
        exact .inr ⟨rfl, hnone, (Option.some.inj hs).symm⟩
      · rw [setBucket_of_ne b ht] at hs
        exact .inl hs

theorem step_consume (h : step b (.consume tenant nowMs) = some b') (hm : b.maxTokens ≠ 0) :
    ∃ s, b.inner tenant = some s ∧
      b' = setBucket b tenant (consume b.maxTokens s nowMs).2 := by
  rw [step, if_neg hm] at h
  obtain ⟨s, hs, rfl⟩ := Option.map_eq_some_iff.mp h
  exact ⟨s, hs, rfl⟩

end Steps

/-! ### Arithmetic -/

/-- No sum and no difference of the call leaves 64 bits. -/
structure NoOverflow (maxTokens : Int) (s : BucketState) (nowMs : Nat) : Prop where
  refill : Fits (s.tokens + refillScaled maxTokens s nowMs)
  deficit : afterRefill maxTokens s nowMs < 1000 →
    Fits (1000 - afterRefill maxTokens s nowMs)
  wait : afterRefill maxTokens s nowMs < 1000 →
    Fits (wrap (1000 - afterRefill maxTokens s nowMs) + maxTokens)
  waitPred : afterRefill maxTokens s nowMs < 1000 →
    Fits (wrap (wrap (1000 - afterRefill maxTokens s nowMs) + maxTokens) - 1)
  taken : 1000 ≤ afterRefill maxTokens s nowMs → Fits (afterRefill maxTokens s nowMs - 1000)

structure InRange (maxTokens : Int) (s : BucketState) : Prop where
  nonneg : 0 ≤ s.tokens
  le_capacity : s.tokens ≤ capacityScaled maxTokens

/-- There is room for what comes in: the sum is not negative, it fits unless the bucket is
empty, and so does the wait where there is less than one token. -/
def Room (maxTokens : Int) (s : BucketState) (nowMs : Nat) : Prop :=
  let sum := s.tokens + elapsedMs s nowMs * maxTokens
  0 ≤ sum ∧ (s.tokens = 0 ∨ sum ≤ maxValue) ∧ (sum < 1000 → 1000 - sum + maxTokens ≤ maxValue)

instance (maxTokens : Int) (s : BucketState) (nowMs : Nat) : Decidable (Room maxTokens s nowMs) :=
  inferInstanceAs (Decidable (_ ∧ _ ∧ _))

section Arithmetic

variable {maxTokens : Int} {s : BucketState} {nowMs : Nat}

theorem capacityScaled_bounds (hm : 0 < maxTokens) :
    1000 ≤ capacityScaled maxTokens ∧ capacityScaled maxTokens ≤ maxValue := by
  simp only [capacityScaled, saturatingMul, saturate, minValue, maxValue]
  omega

theorem consume_tokens (maxTokens : Int) (s : BucketState) (nowMs : Nat) :
    (consume maxTokens s nowMs).2.tokens =
      if afterRefill maxTokens s nowMs < 1000 then afterRefill maxTokens s nowMs
      else wrap (afterRefill maxTokens s nowMs - 1000) := by
  rw [consume]
  split
  · rfl
  · rfl

theorem consume_lastRefillMs (maxTokens : Int) (s : BucketState) (nowMs : Nat) :
    (consume maxTokens s nowMs).2.lastRefillMs = nowMs := by
  rw [consume]
  split
  · rfl
  · rfl

/-- With room, what is there after the refill is the sum, up to the capacity. -/
theorem afterRefill_of_room (hs : InRange maxTokens s) (h : Room maxTokens s nowMs) :
    Fits (s.tokens + refillScaled maxTokens s nowMs) ∧ afterRefill maxTokens s nowMs =
      min (s.tokens + elapsedMs s nowMs * maxTokens) (capacityScaled maxTokens) := by
  obtain ⟨hnonneg, hfits, -⟩ := h
  have htokens := hs.nonneg
  have hle := hs.le_capacity
  have hcapacity : capacityScaled maxTokens ≤ maxValue := (fits_saturate _).2
  have hfull : Fits (s.tokens + refillScaled maxTokens s nowMs) ∧
      min (s.tokens + refillScaled maxTokens s nowMs) (capacityScaled maxTokens) =
        min (s.tokens + elapsedMs s nowMs * maxTokens) (capacityScaled maxTokens) := by
    -- the product is exact, or it saturates on an empty bucket
    rw [refillScaled, saturatingMul]
    generalize elapsedMs s nowMs * maxTokens = x at *
    simp only [Fits, saturate, minValue, maxValue] at *
    omega
  refine ⟨hfull.1, ?_⟩
  rw [afterRefill, wrap_of_fits hfull.1]
  exact hfull.2

theorem room_of_safe (hm : 0 < maxTokens) (hs : InRange maxTokens s)
    (h : NoOverflow maxTokens s nowMs) (hs' : InRange maxTokens (consume maxTokens s nowMs).2) :
    Room maxTokens s nowMs := by
  obtain ⟨hone, hcapacity⟩ := capacityScaled_bounds hm
  have hnonneg := hs'.nonneg
  rw [consume_tokens] at hnonneg
  have hafter : afterRefill maxTokens s nowMs =
      min (s.tokens + refillScaled maxTokens s nowMs) (capacityScaled maxTokens) := by
    rw [afterRefill, wrap_of_fits h.refill]
  have hpositive : 0 ≤ afterRefill maxTokens s nowMs := by
    split at hnonneg
    · exact hnonneg
    · omega
  have hrefill := h.refill
  have htokens := hs.nonneg
  have hle := hs.le_capacity
  have hwait : afterRefill maxTokens s nowMs < 1000 →
      1000 - afterRefill maxTokens s nowMs + maxTokens ≤ maxValue := by
    intro hlt
    have hsum := h.wait hlt
    rw [wrap_of_fits (h.deficit hlt)] at hsum
    exact hsum.2
  rw [hafter] at hpositive hwait
  simp only [Room]
  rw [refillScaled, saturatingMul] at hpositive hwait hrefill
  generalize elapsedMs s nowMs * maxTokens = x at *
  simp only [Fits, saturate, minValue, maxValue] at *
  omega

theorem safe_of_room (hm : 0 < maxTokens) (hs : InRange maxTokens s)
    (h : Room maxTokens s nowMs) :
    NoOverflow maxTokens s nowMs ∧ InRange maxTokens (consume maxTokens s nowMs).2 := by
  obtain ⟨hone, hcapacity⟩ := capacityScaled_bounds hm
  obtain ⟨hrefill, hafter⟩ := afterRefill_of_room hs h
  obtain ⟨hnonneg, -, hwait⟩ := h
  have hbounds : 0 ≤ afterRefill maxTokens s nowMs ∧
      afterRefill maxTokens s nowMs ≤ capacityScaled maxTokens := by
    omega
  have hsum : afterRefill maxTokens s nowMs < 1000 →
      1000 - afterRefill maxTokens s nowMs + maxTokens ≤ maxValue := by
    intro hlt
    have hsame : afterRefill maxTokens s nowMs = s.tokens + elapsedMs s nowMs * maxTokens := by
      omega
    rw [hsame] at hlt ⊢
    exact hwait hlt
  have hfits : ∀ x : Int, -1000 ≤ x → x ≤ maxValue → Fits x := by
    intro x hlow hhigh
    refine ⟨?_, hhigh⟩
    simp only [minValue]
    omega
  have hmaxValue : (1000 : Int) ≤ maxValue := hone.trans hcapacity
  refine ⟨⟨hrefill, ?_, ?_, ?_, ?_⟩, ?_, ?_⟩
  · intro hlt
    exact hfits _ (by omega) (by omega)
  · intro hlt
    rw [wrap_of_fits (hfits _ (by omega) (by omega))]
    exact hfits _ (by omega) (hsum hlt)
  · intro hlt
    have hsum := hsum hlt
    have hdeficit : wrap (1000 - afterRefill maxTokens s nowMs) =
        1000 - afterRefill maxTokens s nowMs :=
      wrap_of_fits (hfits _ (by omega) (by omega))
    rw [hdeficit, wrap_of_fits (hfits _ (by omega) hsum)]
    exact hfits _ (by omega) (by omega)
  · intro hle
    exact hfits _ (by omega) (by omega)
  · rw [consume_tokens]
    split
    · exact hbounds.1
    · rw [wrap_of_fits (hfits _ (by omega) (by omega))]
      omega
  · rw [consume_tokens]
    split
    · exact hbounds.2
    · rw [wrap_of_fits (hfits _ (by omega) (by omega))]
      omega

end Arithmetic

/-! ### Every call -/

/-- The call, if it is one that has the lock, does not overflow and leaves its bucket between
empty and full. -/
def SafeCall (b : PublishBucket) : Label → Prop
  | .enter _ _ => True
  | .consume tenant nowMs => b.maxTokens ≠ 0 → ∀ s, b.inner tenant = some s →
      NoOverflow b.maxTokens s nowMs ∧ InRange b.maxTokens (consume b.maxTokens s nowMs).2

def RoomForCall (b : PublishBucket) : Label → Prop
  | .enter _ _ => True
  | .consume tenant nowMs => b.maxTokens ≠ 0 → ∀ s, b.inner tenant = some s →
      Room b.maxTokens s nowMs

structure Inv (b : PublishBucket) : Prop where
  nonneg : 0 ≤ b.maxTokens
  buckets : ∀ tenant s, b.inner tenant = some s → InRange b.maxTokens s

theorem inv_new (maxTokens : Int) : Inv (.new maxTokens) where
  nonneg := le_max_right _ _
  buckets := nofun

theorem inv_step {b b' : PublishBucket} {l : Label} (hs : Inv b) (hl : SafeCall b l)
    (h : step b l = some b') : Inv b' := by
  have hmax := step_maxTokens h
  refine ⟨hmax ▸ hs.nonneg, ?_⟩
  rw [hmax]
  intro t s ht
  cases l with
  | enter tenant nowMs =>
    obtain hold | ⟨-, -, rfl⟩ := step_enter h ht
    · exact hs.buckets t s hold
    · -- a new bucket is full
      refine ⟨?_, le_refl _⟩
      have hzero := hs.nonneg
      show 0 ≤ saturate (b.maxTokens * 1000)
      rw [saturate_nonneg_iff]
      omega
  | consume tenant nowMs =>
    by_cases hm : b.maxTokens = 0
    · rw [step, if_pos hm] at h
      obtain rfl := Option.some.inj h
      exact hs.buckets t s ht
    · obtain ⟨s₀, hs₀, rfl⟩ := step_consume h hm
      obtain rfl | hne := eq_or_ne t tenant
      · rw [setBucket_self] at ht
        obtain rfl := Option.some.inj ht
        exact (hl hm s₀ hs₀).2
      · rw [setBucket_of_ne b hne] at ht
        exact hs.buckets t s ht

theorem safeCall_iff {b : PublishBucket} (hs : Inv b) (l : Label) :
    SafeCall b l ↔ RoomForCall b l := by
  cases l with
  | enter => exact Iff.rfl
  | consume tenant nowMs =>
    refine forall_congr' fun hm => forall_congr' fun s => forall_congr' fun hbucket => ?_
    have hpos : 0 < b.maxTokens := lt_of_le_of_ne hs.nonneg (Ne.symm hm)
    have hrange := hs.buckets tenant s hbucket
    constructor
    · exact fun h => room_of_safe hpos hrange h.1 h.2
    · exact fun h => safe_of_room hpos hrange h

/-- In a run of calls with any readings, no sum of 64 bits wraps around and every bucket stays
between empty and full in exactly the runs in which every call that has the lock finds room. -/
theorem publishBucket_safe_iff {maxTokens : Int} {ls : List Label} {b : PublishBucket}
    (hrun : run step (.new maxTokens) ls = some b) :
    Along step SafeCall (.new maxTokens) ls ↔ Along step RoomForCall (.new maxTokens) ls := by
  refine Along.iff_of_invariant Inv ?_ (inv_new maxTokens) hrun
  intro s l t _ hs ht
  exact ⟨safeCall_iff hs l, fun hl => inv_step hs hl ht⟩

/-- A tenant publishes at the default rate. -/
theorem publishBucket_safe_default :
    Along step SafeCall (.new 100) [.enter "t" 5, .consume "t" 5, .consume "t" 3] := by
  have hrun : run step (.new 100) [.enter "t" 5, .consume "t" 5, .consume "t" 3] =
      some ((run step (.new 100) [.enter "t" 5, .consume "t" 5, .consume "t" 3]).get
        (by decide)) := (Option.some_get _).symm
  refine (publishBucket_safe_iff hrun).mpr ⟨trivial, ?_, ?_, trivial⟩
  · intro _ s hs
    obtain rfl := Option.some.inj (hs.symm.trans rfl)
    decide
  · intro _ s hs
    obtain rfl := Option.some.inj (hs.symm.trans rfl)
    decide

/-- At this rate the capacity saturates, and the refill of a millisecond no longer fits. -/
theorem publishBucket_overflows : ∃ ls b, Fits (10 ^ 16) ∧
    run step (.new (10 ^ 16)) ls = some b ∧ ¬ Along step SafeCall (.new (10 ^ 16)) ls := by
  refine ⟨[.enter "t" 0, .consume "t" 0, .consume "t" 1], _, by decide, rfl, ?_⟩
  rintro ⟨-, -, hsafe, -⟩
  have hrefill := (hsafe (by decide +kernel) _ rfl).1.refill
  revert hrefill
  decide +kernel

end RoomPolicy

end Drust
