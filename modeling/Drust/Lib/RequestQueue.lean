import Drust.Lib.SerialTable

/-!
# Queues of requests

A queue holds requests about some subjects. A request is pending until it is decided, a decided one
is kept as a record for some days, and all requests that a predicate selects may be purged. A
subject has at most one pending request, and its requests of one day are counted, whatever became
of them.

What is said of a queue is said beside the log of what was filed and not purged. `Kept` is what
every operation keeps: no subject has two pending requests, today's rows are today's part of the
log, and no day has more of the log than the limit allows. The rows of the days before may be gone,
so the limit cannot be read off the table; it is the prune that must not reach today's rows
(`Kept.prune`).
-/

inductive RequestStatus where
  | pending
  | approved
  | rejected
  deriving DecidableEq, Repr

structure Request (σ α : Type) where
  subject : σ
  body : α
  status : RequestStatus := .pending
  /-- In seconds. -/
  createdAt : Int
  decidedBy : Option Int := none
  decidedAt : Option Int := none

/-- A request when it is filed. -/
structure Filing (σ α : Type) where
  subject : σ
  body : α
  createdAt : Int

def Request.filing {σ α : Type} (r : Request σ α) : Filing σ α :=
  ⟨r.subject, r.body, r.createdAt⟩

abbrev RequestQueue (σ α : Type) := SerialTable (Request σ α)

namespace RequestQueue

variable {σ α : Type}

/-- The day of a time. -/
def day (t : Int) : Int := t / 86400

def file (q : RequestQueue σ α) (subject : σ) (body : α) (now : Int) : RequestQueue σ α :=
  q.insert { subject, body, createdAt := now }

/-- A request is decided if it is pending. -/
def decide (q : RequestQueue σ α) (i : Nat) (status : RequestStatus) (decidedBy now : Int) :
    RequestQueue σ α :=
  q.update (fun j r => j == i && r.status == .pending) fun r =>
    { r with status := status, decidedBy := some decidedBy, decidedAt := some now }

/-- Whether a request is a record that is older than some days. -/
def isStale (days now : Int) (r : Request σ α) : Bool :=
  r.status != .pending && (r.decidedAt.getD r.createdAt < now - days * 86400 : Bool)

def prune (q : RequestQueue σ α) (days now : Int) : RequestQueue σ α :=
  if days ≤ 0 then q else q.delete fun _ r => isStale days now r

def purge (q : RequestQueue σ α) (p : σ → α → Bool) : RequestQueue σ α :=
  q.delete fun _ r => p r.subject r.body

/-- What is in the queue, as it was filed. -/
def filings (q : RequestQueue σ α) : List (Filing σ α) :=
  q.entries.map fun e => e.2.filing

/-- The pending requests. -/
def pending (q : RequestQueue σ α) : List (Nat × Request σ α) :=
  q.entries.filter fun e => e.2.status == .pending

/-- Of a day. -/
def onDay (d : Int) (f : Filing σ α) : Bool :=
  day f.createdAt == d

theorem filings_decide (q : RequestQueue σ α) (i : Nat) (status : RequestStatus)
    (decidedBy now : Int) : (decide q i status decidedBy now).filings = q.filings := by
  unfold filings decide SerialTable.update
  rw [List.map_map]
  refine List.map_congr_left fun e _ => ?_
  dsimp only [Function.comp]
  split <;> rfl

/-! ### The rules of a queue -/

variable [DecidableEq σ]

def hasPending (q : RequestQueue σ α) (subject : σ) : Bool :=
  q.entries.any fun e => e.2.subject == subject && e.2.status == .pending

/-- The requests of a subject on a day, whatever their status. -/
def submits (q : RequestQueue σ α) (subject : σ) (d : Int) : Nat :=
  q.entries.countP fun e => e.2.subject == subject && day e.2.createdAt == d

/-- The filings of a subject on a day. -/
def filed (log : List (Filing σ α)) (subject : σ) (d : Int) : Nat :=
  log.countP fun f => f.subject == subject && day f.createdAt == d

/-- A queue that keeps its rules, beside the log of what was filed. -/
structure Kept (limit : Int) (log : List (Filing σ α)) (now : Int) (q : RequestQueue σ α) : Prop where
  pending : (q.pending.map fun e => e.2.subject).Nodup
  past : ∀ e ∈ q.entries, e.2.createdAt ≤ now ∧ ∀ t ∈ e.2.decidedAt, e.2.createdAt ≤ t
  logged : ∀ f ∈ log, f.createdAt ≤ now
  today : q.filings.filter (onDay (day now)) = log.filter (onDay (day now))
  budget : 0 < limit → ∀ subject d, (filed log subject d : Int) ≤ limit

variable {limit now now' days : Int} {log : List (Filing σ α)} {q : RequestQueue σ α} {subject : σ}
  {body : α} {i : Nat}

theorem kept_empty (limit now : Int) : Kept limit [] now (.empty : RequestQueue σ α) where
  pending := List.nodup_nil
  past := List.forall_mem_nil _
  logged := List.forall_mem_nil _
  today := rfl
  budget := fun hlimit _ _ => Int.le_of_lt hlimit

/-- What is counted today is today's part of the log. -/
theorem Kept.submits_today (h : Kept limit log now q) (subject : σ) :
    submits q subject (day now) = filed log subject (day now) := by
  have hcount : ∀ l : List (Filing σ α), filed l subject (day now) =
      (l.filter (onDay (day now))).countP fun f => f.subject == subject := by
    intro l
    rw [List.countP_filter]
    rfl
  have hrows : submits q subject (day now) = filed q.filings subject (day now) := by
    rw [submits, filed, filings, List.countP_map]
    rfl
  rw [hrows, hcount, h.today, ← hcount]

theorem day_mono (h : now ≤ now') : day now ≤ day now' :=
  Int.ediv_le_ediv (by decide) h

/-- A new day starts without requests. -/
theorem Kept.tick (h : Kept limit log now q) (hnow : now ≤ now') : Kept limit log now' q := by
  refine ⟨h.pending, ?_, fun f hf => (h.logged f hf).trans hnow, ?_, h.budget⟩
  · exact fun e he => ⟨(h.past e he).1.trans hnow, (h.past e he).2⟩
  · obtain hday | hday := (day_mono hnow).eq_or_lt
    · rw [← hday]
      exact h.today
    · have hnone : ∀ l : List (Filing σ α), (∀ f ∈ l, f.createdAt ≤ now) →
          l.filter (onDay (day now')) = [] := by
        intro l hl
        rw [List.filter_eq_nil_iff]
        intro f hf hon
        have hle := day_mono (hl f hf)
        have heq : day f.createdAt = day now' := beq_iff_eq.mp hon
        omega
      rw [hnone log h.logged, hnone q.filings]
      intro f hf
      obtain ⟨e, he, rfl⟩ := List.mem_map.mp hf
      exact (h.past e he).1

/-- A request is filed for a subject that has none pending and room in its day. -/
theorem Kept.file (h : Kept limit log now q) (hfree : hasPending q subject = false)
    (hroom : 0 < limit → (submits q subject (day now) : Int) < limit) (body : α) :
    Kept limit (log ++ [⟨subject, body, now⟩]) now (file q subject body now) := by
  have hfilings : (RequestQueue.file q subject body now).filings =
      q.filings ++ [⟨subject, body, now⟩] := List.map_append
  constructor
  · have hnew : (RequestQueue.file q subject body now).pending =
        q.pending ++ [(q.seq + 1, { subject, body, createdAt := now })] := List.filter_append _ _
    rw [hnew, List.map_append, List.nodup_append']
    refine ⟨h.pending, List.nodup_singleton _, ?_⟩
    intro s hs hs'
    obtain rfl : s = subject := List.mem_singleton.mp hs'
    obtain ⟨e, he, rfl⟩ := List.mem_map.mp hs
    obtain ⟨he, hpending⟩ := List.mem_filter.mp he
    have hsome : hasPending q e.2.subject = true :=
      List.any_eq_true.mpr ⟨e, he, by simpa using hpending⟩
    rw [hfree] at hsome
    cases hsome
  · intro e he
    obtain he | he := List.mem_append.mp he
    · exact h.past e he
    · rw [List.mem_singleton.mp he]
      exact ⟨Int.le_refl _, fun t ht => by cases ht⟩
  · intro f hf
    obtain hf | hf := List.mem_append.mp hf
    · exact h.logged f hf
    · rw [List.mem_singleton.mp hf]
  · rw [hfilings, List.filter_append, List.filter_append, h.today]
  · intro hlimit s d
    have hold := h.budget hlimit s d
    have hroom := hroom hlimit
    rw [h.submits_today] at hroom
    rw [filed, List.countP_append, List.countP_singleton]
    rw [filed] at hold hroom
    split
    · next hnew =>
      simp only [Bool.and_eq_true, beq_iff_eq] at hnew
      obtain ⟨rfl, rfl⟩ := hnew
      push_cast
      omega
    · exact_mod_cast hold

theorem Kept.decide (h : Kept limit log now q) (status : RequestStatus) (decidedBy : Int) :
    Kept limit log now (decide q i status decidedBy now) := by
  refine ⟨?_, ?_, h.logged, ?_, h.budget⟩
  · -- what is pending after the decision was pending before
    have hsub : ((RequestQueue.decide q i status decidedBy now).pending.map
        fun e => e.2.subject).Sublist (q.pending.map fun e => e.2.subject) := by
      unfold RequestQueue.pending RequestQueue.decide SerialTable.update
      rw [List.filter_map, List.map_map]
      have hkept : ∀ e : Nat × Request σ α, (if e.1 == i && e.2.status == .pending then
          { e.2 with status := status, decidedBy := some decidedBy, decidedAt := some now }
          else e.2).subject = e.2.subject := by
        intro e
        split <;> rfl
      simp only [Function.comp_def, hkept]
      refine List.Sublist.map _ (List.monotone_filter_right _ ?_)
      intro e hpending
      by_cases hsel : (e.1 == i && e.2.status == .pending) = true
      · exact (Bool.and_eq_true_iff.mp hsel).2
      · simpa [hsel] using hpending
    exact hsub.nodup h.pending
  · intro e he
    obtain ⟨r, hr, heq⟩ := SerialTable.mem_update he
    rw [heq]
    split
    · exact ⟨(h.past _ hr).1, fun t ht => by cases ht; exact (h.past _ hr).1⟩
    · exact h.past _ hr
  · rw [filings_decide]
    exact h.today

theorem Kept.delete (h : Kept limit log now q) {p : Nat → Request σ α → Bool}
    {log' : List (Filing σ α)} (hsub : log'.Sublist log)
    (htoday : (filings (q.delete p)).filter (onDay (day now)) = log'.filter (onDay (day now))) :
    Kept limit log' now (q.delete p) := by
  refine ⟨?_, ?_, fun f hf => h.logged f (hsub.mem hf), htoday, ?_⟩
  · refine List.Sublist.nodup (List.Sublist.map _ ?_) h.pending
    exact List.filter_sublist.filter _
  · exact fun e he => h.past e (SerialTable.mem_delete.mp he).1
  · intro hlimit s d
    have hle : filed log' s d ≤ filed log s d := hsub.countP_le
    exact (Int.ofNat_le.mpr hle).trans (h.budget hlimit s d)

/-- No row of today is old enough to be pruned. -/
theorem Kept.not_stale (h : Kept limit log now q) (hdays : 0 < days) {e : Nat × Request σ α}
    (he : e ∈ q.entries) (hday : day e.2.createdAt = day now) : isStale days now e.2 = false := by
  have hle : e.2.createdAt ≤ e.2.decidedAt.getD e.2.createdAt := by
    cases hdecided : e.2.decidedAt with
    | none => exact Int.le_refl _
    | some t => exact (h.past e he).2 t hdecided
  have hrecent : now - days * 86400 ≤ e.2.createdAt := by
    have hnow := Int.emod_add_mul_ediv now 86400
    have hcreated := Int.emod_add_mul_ediv e.2.createdAt 86400
    have hlt := Int.emod_lt_of_pos now (b := 86400) (by decide)
    have hpos := Int.emod_nonneg e.2.createdAt (b := 86400) (by decide)
    unfold day at hday
    omega
  unfold isStale
  rw [Bool.and_eq_false_iff]
  exact Or.inr (decide_eq_false (Int.not_lt.mpr (hrecent.trans hle)))

theorem Kept.prune (h : Kept limit log now q) (days : Int) :
    Kept limit log now (prune q days now) := by
  unfold RequestQueue.prune
  split
  · exact h
  · next hdays =>
    refine h.delete (List.Sublist.refl log) ?_
    rw [← h.today, filings, SerialTable.delete, filings, List.filter_map, List.filter_map,
      List.filter_filter]
    congr 1
    refine List.filter_congr fun e he => ?_
    dsimp only [Function.comp]
    by_cases hday : day e.2.createdAt = day now
    · rw [h.not_stale (Int.not_le.mp hdays) he hday]
      exact Bool.and_true _
    · have hout : onDay (day now) e.2.filing = false := beq_eq_false_iff_ne.mpr hday
      rw [hout]
      rfl

/-- The log forgets what is purged. -/
theorem Kept.purge (h : Kept limit log now q) (p : σ → α → Bool) :
    Kept limit (log.filter fun f => !p f.subject f.body) now (purge q p) := by
  refine h.delete List.filter_sublist ?_
  have hfilings : filings (q.delete fun _ r => p r.subject r.body) =
      q.filings.filter fun f => !p f.subject f.body := by
    rw [filings, SerialTable.delete, filings, List.filter_map]
    rfl
  rw [hfilings, List.filter_comm, h.today, List.filter_comm]

/-! ### What holds of every request -/

/-- A relation between subjects and bodies that holds of every request. What it says of a subject may
change with the time. -/
def About (R : σ → α → Prop) (q : RequestQueue σ α) : Prop :=
  ∀ e ∈ q.entries, R e.2.subject e.2.body

/-- What a step does to a queue and its log, while what is said of the subjects changes from `R` to
`R'`. -/
inductive Write (limit : Int) (R R' : σ → α → Prop) (log : List (Filing σ α)) (now : Int)
    (q : RequestQueue σ α) : List (Filing σ α) → Int → RequestQueue σ α → Prop
  | kept {now' : Int} (hnow : now ≤ now') (hR : ∀ i b, R i b → R' i b) :
    Write limit R R' log now q log now' q
  | filed (subject : σ) (body : α) (hfree : hasPending q subject = false)
    (hroom : 0 < limit → (submits q subject (day now) : Int) < limit) (hbody : R' subject body)
    (hR : ∀ i b, R i b → R' i b) :
    Write limit R R' log now q (log ++ [⟨subject, body, now⟩]) now (file q subject body now)
  | decided (i : Nat) (status : RequestStatus) (decidedBy : Int) (hR : ∀ i b, R i b → R' i b) :
    Write limit R R' log now q log now (decide q i status decidedBy now)
  | pruned (days : Int) (hR : ∀ i b, R i b → R' i b) :
    Write limit R R' log now q log now (prune q days now)
  | purged (p : σ → α → Bool) (hR : ∀ i b, p i b = false → R i b → R' i b) :
    Write limit R R' log now q (log.filter fun f => !p f.subject f.body) now (purge q p)

section Write

variable {R R' : σ → α → Prop} {log' : List (Filing σ α)} {q' : RequestQueue σ α}

theorem Write.keeps (h : Write limit R R' log now q log' now' q') (hkept : Kept limit log now q) :
    Kept limit log' now' q' := by
  cases h with
  | kept hnow _ => exact hkept.tick hnow
  | filed subject body hfree hroom _ _ => exact hkept.file hfree hroom body
  | decided i status decidedBy _ => exact hkept.decide status decidedBy
  | pruned days _ => exact hkept.prune days
  | purged p _ => exact hkept.purge p

theorem Write.about (h : Write limit R R' log now q log' now' q') (habout : About R q) :
    About R' q' := by
  cases h with
  | kept _ hR => exact fun e he => hR _ _ (habout e he)
  | filed subject body _ _ hbody hR =>
    intro e he
    obtain he | he := List.mem_append.mp he
    · exact hR _ _ (habout e he)
    · rw [List.mem_singleton.mp he]
      exact hbody
  | decided i status decidedBy hR =>
    intro e he
    obtain ⟨r, hr, heq⟩ := SerialTable.mem_update he
    rw [heq]
    split
    · exact hR _ _ (habout _ hr)
    · exact hR _ _ (habout _ hr)
  | pruned days hR =>
    intro e he
    unfold prune at he
    split at he
    · exact hR _ _ (habout e he)
    · exact hR _ _ (habout e (SerialTable.mem_delete.mp he).1)
  | purged p hR =>
    intro e he
    obtain ⟨he, hp⟩ := SerialTable.mem_delete.mp he
    exact hR _ _ hp (habout e he)

end Write

end RequestQueue
