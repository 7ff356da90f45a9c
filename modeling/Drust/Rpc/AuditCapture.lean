import Drust.Lib.Result
import Drust.Rpc.WriteAtomicity
import Drust.Storage.HistoryReplay

/-!
# A write call commits only with its history

The hook of the audit trail cannot stop the statement that it watches. What it can do is to
set the buffer's error, which the flush then reports, and the executor gives the savepoint up.
This module follows the error on that way.

* Within the buffer: the tracked byte count is that of the buffered changes, on the way that
  appends a change and on the way that replaces an image in place, and both counts are within
  the limits that are set (`Accounted`). Zero is no limit.
* For each event of a captured table: it is in the buffer, in an entry of its own or in the
  pending put of the row that took its new image, or the error is set (`captureEvent_held`). An
  entry stays at its position, and only its new image is ever replaced (`Renewed`).
* At the end: an error stays, the flush fails, and the call does not commit
  (`committed_flush`).
-/

namespace Drust.RecordHistory

variable {audited : List String} {limits : CaptureLimits} {g : CaptureBuffer} {ev : Event}

/-! ### The counts -/

/-- The tracked bytes are those of the buffered changes, and both counts are within the limits
that are set. -/
structure Accounted (limits : CaptureLimits) (g : CaptureBuffer) : Prop where
  rows : limits.maxRows ≠ 0 → g.changes.length ≤ limits.maxRows
  bytes_eq : g.approxBytes = (g.changes.map changeBytes).sum
  bytes_le : limits.maxBytes ≠ 0 → g.approxBytes ≤ limits.maxBytes

theorem Accounted.initial (limits : CaptureLimits) : Accounted limits {} where
  rows := fun _ => Nat.zero_le _
  bytes_eq := rfl
  bytes_le := fun _ => Nat.zero_le _

/-- Setting the error touches neither count. -/
theorem Accounted.fail (h : Accounted limits g) (e : CaptureError) :
    Accounted limits { g with error := some e } :=
  ⟨h.rows, h.bytes_eq, h.bytes_le⟩

theorem Accounted.pushChange (h : Accounted limits g) (change : Except String BufferedChange) :
    Accounted limits (pushChange limits g change) := by
  unfold RecordHistory.pushChange
  split
  · exact h.fail _
  · next c =>
    split
    · exact h.fail _
    · next hrows =>
      split
      · exact h.fail _
      · next hbytes =>
        refine ⟨?_, ?_, ?_⟩
        · intro hmax
          rw [List.length_append, List.length_singleton]
          have hlt : ¬ limits.maxRows ≤ g.changes.length := fun hle => hrows ⟨hmax, hle⟩
          omega
        · rw [List.map_append, List.sum_append, ← h.bytes_eq, List.map_singleton,
            List.sum_singleton]
        · intro hmax
          exact not_lt.mp (fun hlt => hbytes ⟨hmax, hlt⟩)

/-- The bytes of a change whose new image is replaced. -/
theorem changeBytes_withNew {c : BufferedChange} {image : List CapturedValue}
    (h : c.new = some image) (new : List CapturedValue) :
    changeBytes (c.withNew new) + valsBytes image = changeBytes c + valsBytes new := by
  have hc : changeBytes c = (c.old.map valsBytes).getD 0 + valsBytes image := by
    rw [changeBytes, h]
    rfl
  have hnew : changeBytes (c.withNew new) = (c.old.map valsBytes).getD 0 + valsBytes new := rfl
  omega

/-- A pending put that the buffer holds at the position. -/
theorem pendingPut_at {rowid : Int64} {idx : Nat}
    (h : rposition (pendingPut ev.table rowid) g.changes = some idx) :
    ∃ pre c post image, g.changes = pre ++ c :: post ∧ pre.length = idx ∧ c.table = ev.table ∧
      c.rowid = rowid ∧ c.new = some image := by
  rw [← List.map_id g.changes] at h
  obtain ⟨pre, c, post, hchanges, hidx, hput, -⟩ := rposition_spec h
  simp only [id, pendingPut, Bool.and_eq_true, beq_iff_eq] at hput
  obtain ⟨image, himage⟩ := Option.isSome_iff_exists.mp hput.2
  exact ⟨pre, c, post, image, hchanges, hidx, hput.1.1, hput.1.2, himage⟩

theorem Accounted.mergeChange (h : Accounted limits g) {rowid : Int64} {idx : Nat}
    (hidx : rposition (pendingPut ev.table rowid) g.changes = some idx)
    (new : List CapturedValue) : Accounted limits (mergeChange limits g idx new) := by
  obtain ⟨pre, c, post, image, hchanges, rfl, -, -, himage⟩ := pendingPut_at hidx
  have hreplaced :
      ((g.changes[pre.length]?.bind BufferedChange.new).map valsBytes).getD 0 = valsBytes image := by
    rw [hchanges, List.getElem?_append_right (le_refl _), Nat.sub_self, List.getElem?_cons_zero,
      Option.bind_some, himage]
    rfl
  unfold RecordHistory.mergeChange
  rw [hreplaced]
  simp only
  split
  · exact h.fail _
  · next hbytes =>
    refine ⟨?_, ?_, ?_⟩
    · intro hmax
      rw [List.length_modify]
      exact h.rows hmax
    · -- the replaced image is a part of the count, so the subtraction does not saturate
      have hbefore := h.bytes_eq
      rw [hchanges, List.map_append, List.sum_append, List.map_cons, List.sum_cons] at hbefore
      have hc := changeBytes_withNew himage new
      have hle : valsBytes image ≤ changeBytes c := by
        rw [changeBytes, himage]
        exact Nat.le_add_left _ _
      show g.approxBytes - valsBytes image + valsBytes new = _
      rw [hchanges, modify_append_cons, List.map_append, List.sum_append, List.map_cons,
        List.sum_cons]
      omega
    · intro hmax
      exact not_lt.mp (fun hlt => hbytes ⟨hmax, hlt⟩)

/-! ### What the hook does with an event -/

/-- The event of a captured table, while the buffer has no error: it sets the error, or the
buffer gets an entry of its own for it, or the pending put of the row takes its new image. -/
theorem captureEvent_cases (limits : CaptureLimits)
    (hcap : captured audited ev.table = true) (hok : g.error = none) :
    (∃ e, captureEvent audited limits g ev = { g with error := some e }) ∨
    captureEvent audited limits g ev = pushChange limits g (bufferedChange ev) ∨
    ∃ rowid new idx, triggerUpdate ev.case = some (rowid, .ok new) ∧
      rposition (pendingPut ev.table rowid) g.changes = some idx ∧
      captureEvent audited limits g ev = mergeChange limits g idx new := by
  unfold captureEvent
  rw [hcap, hok]
  simp only [Bool.not_true, Bool.false_eq_true, if_false, Option.isSome_none]
  split
  · exact .inl ⟨_, rfl⟩
  · next rowid new htrigger =>
    split
    · next idx hidx => exact .inr (.inr ⟨rowid, new, idx, htrigger, hidx, rfl⟩)
    · exact .inr (.inl rfl)
  · exact .inr (.inl rfl)

theorem captureEvent_skip (limits : CaptureLimits) (g : CaptureBuffer)
    (hcap : captured audited ev.table = false) : captureEvent audited limits g ev = g := by
  simp only [captureEvent, hcap, Bool.not_false, if_true]

theorem Accounted.captureEvent (h : Accounted limits g) (audited : List String) (ev : Event) :
    Accounted limits (captureEvent audited limits g ev) := by
  cases hcap : captured audited ev.table with
  | false =>
    rw [captureEvent_skip limits g hcap]
    exact h
  | true =>
    cases herror : g.error with
    | some e =>
      rw [captureEvent_error audited limits (by rw [herror]; rfl)]
      exact h
    | none =>
      obtain ⟨e, heq⟩ | heq | ⟨rowid, new, idx, -, hidx, heq⟩ :=
        captureEvent_cases limits hcap herror
      · rw [heq]
        exact h.fail e
      · rw [heq]
        exact h.pushChange _
      · rw [heq]
        exact h.mergeChange hidx new

/-- The counts after any events. -/
theorem Accounted.captureAll (audited : List String) (limits : CaptureLimits) (evs : List Event) :
    Accounted limits (captureAll audited limits evs) := by
  have hall : ∀ g, Accounted limits g →
      Accounted limits (evs.foldl (RecordHistory.captureEvent audited limits) g) := by
    induction evs with
    | nil => exact fun _ h => h
    | cons ev evs ih => exact fun g h => ih _ (h.captureEvent audited ev)
  exact hall {} (Accounted.initial limits)

/-! ### Entries stay -/

/-- The same change, with its new image as it was last shown. -/
def Renewed (c c' : BufferedChange) : Prop :=
  ∃ new, c' = { c with new := new } ∧ new.isSome = c.new.isSome

theorem Renewed.refl (c : BufferedChange) : Renewed c c :=
  ⟨c.new, rfl, rfl⟩

theorem Renewed.trans {c c' c'' : BufferedChange} (h : Renewed c c') (h' : Renewed c' c'') :
    Renewed c c'' := by
  obtain ⟨new, rfl, hnew⟩ := h
  obtain ⟨new', rfl, hnew'⟩ := h'
  exact ⟨new', rfl, hnew'.trans hnew⟩

/-- Every entry is still at its position. -/
def Grows (cs cs' : List BufferedChange) : Prop :=
  ∀ (i : Nat) (c : BufferedChange), cs[i]? = some c → ∃ c', cs'[i]? = some c' ∧ Renewed c c'

theorem Grows.refl (cs : List BufferedChange) : Grows cs cs :=
  fun _ c hc => ⟨c, hc, Renewed.refl c⟩

theorem Grows.trans {cs cs' cs'' : List BufferedChange} (h : Grows cs cs') (h' : Grows cs' cs'') :
    Grows cs cs'' := by
  intro i c hc
  obtain ⟨c', hc', hrenewed⟩ := h i c hc
  obtain ⟨c'', hc'', hrenewed'⟩ := h' i c' hc'
  exact ⟨c'', hc'', hrenewed.trans hrenewed'⟩

theorem Grows.append (cs : List BufferedChange) (c : BufferedChange) : Grows cs (cs ++ [c]) := by
  intro i d hd
  have hi : i < cs.length := (List.getElem?_eq_some_iff.mp hd).1
  exact ⟨d, by rw [List.getElem?_append_left hi]; exact hd, Renewed.refl d⟩

/-- Replacing the new image of an entry that has one. -/
theorem Grows.modify (pre post : List BufferedChange) {c : BufferedChange}
    {image : List CapturedValue} (himage : c.new = some image) (new : List CapturedValue) :
    Grows (pre ++ c :: post) (pre ++ c.withNew new :: post) := by
  intro i d hd
  obtain hlt | hge := Nat.lt_or_ge i pre.length
  · rw [List.getElem?_append_left hlt] at hd ⊢
    exact ⟨d, hd, Renewed.refl d⟩
  · rw [List.getElem?_append_right hge] at hd ⊢
    cases hi : i - pre.length with
    | zero =>
      rw [hi, List.getElem?_cons_zero] at hd
      obtain rfl := Option.some.inj hd
      refine ⟨c.withNew new, by rw [List.getElem?_cons_zero], some new, rfl, ?_⟩
      rw [himage]
      rfl
    | succ j =>
      rw [hi, List.getElem?_cons_succ] at hd
      exact ⟨d, by rw [List.getElem?_cons_succ]; exact hd, Renewed.refl d⟩

/-! ### Every event is held -/

/-- Where the buffer holds an event that came when it was `g`: at the end, as the change the
event announces, or in the pending put that took its new image. -/
def Holds (g : CaptureBuffer) (ev : Event) (i : Nat) (c : BufferedChange) : Prop :=
  (i = g.changes.length ∧ bufferedChange ev = .ok c) ∨
  (i < g.changes.length ∧ c.table = ev.table ∧
    ∃ rowid new, triggerUpdate ev.case = some (rowid, .ok new) ∧ c.rowid = rowid ∧
      c.new = some new)

/-- One event of a captured table: the error is set, or the event is held. -/
theorem captureEvent_held (limits : CaptureLimits)
    (hcap : captured audited ev.table = true) (hok : g.error = none) :
    ((captureEvent audited limits g ev).error ≠ none ∧
      (captureEvent audited limits g ev).changes = g.changes) ∨
    Grows g.changes (captureEvent audited limits g ev).changes ∧
      ∃ i c, (captureEvent audited limits g ev).changes[i]? = some c ∧ Holds g ev i c := by
  obtain ⟨e, heq⟩ | heq | ⟨rowid, new, idx, htrigger, hidx, heq⟩ :=
    captureEvent_cases limits hcap hok
  · rw [heq]
    exact .inl ⟨Option.some_ne_none e, rfl⟩
  · rw [heq]
    unfold pushChange
    split
    · exact .inl ⟨Option.some_ne_none _, rfl⟩
    · next c hc =>
      split
      · exact .inl ⟨Option.some_ne_none _, rfl⟩
      split
      · exact .inl ⟨Option.some_ne_none _, rfl⟩
      · refine .inr ⟨Grows.append g.changes c, g.changes.length, c, ?_, .inl ⟨rfl, hc⟩⟩
        exact List.getElem?_concat_length
  · rw [heq]
    obtain ⟨pre, c, post, image, hchanges, rfl, htable, hrowid, himage⟩ := pendingPut_at hidx
    unfold mergeChange
    simp only
    split
    · exact .inl ⟨Option.some_ne_none _, rfl⟩
    · have hmodify : g.changes.modify pre.length (BufferedChange.withNew new)
          = pre ++ c.withNew new :: post := by rw [hchanges, modify_append_cons]
      simp only [hmodify]
      refine .inr ⟨?_, pre.length, c.withNew new, ?_, .inr ⟨?_, htable, rowid, new, htrigger,
        hrowid, rfl⟩⟩
      · rw [hchanges]
        exact Grows.modify pre post himage new
      · rw [List.getElem?_append_right (le_refl _), Nat.sub_self, List.getElem?_cons_zero]
      · rw [hchanges, List.length_append, List.length_cons]
        omega

/-- No event removes an entry, whether it sets the error or not. -/
theorem grows_captureEvent (audited : List String) (limits : CaptureLimits) (g : CaptureBuffer)
    (ev : Event) : Grows g.changes (captureEvent audited limits g ev).changes := by
  cases hcap : captured audited ev.table with
  | false =>
    rw [captureEvent_skip limits g hcap]
    exact Grows.refl _
  | true =>
    cases herror : g.error with
    | some e =>
      rw [captureEvent_error audited limits (by rw [herror]; rfl)]
      exact Grows.refl _
    | none =>
      obtain ⟨-, hsame⟩ | ⟨hgrows, -⟩ := captureEvent_held limits hcap herror
      · rw [hsame]
        exact Grows.refl _
      · exact hgrows

theorem grows_foldl (audited : List String) (limits : CaptureLimits) (evs : List Event) :
    ∀ g : CaptureBuffer, Grows g.changes (evs.foldl (captureEvent audited limits) g).changes := by
  induction evs with
  | nil => exact fun g => Grows.refl g.changes
  | cons ev evs ih =>
    intro g
    rw [List.foldl_cons]
    exact (grows_captureEvent audited limits g ev).trans (ih _)

theorem captureAll_append (audited : List String) (limits : CaptureLimits)
    (evs more : List Event) :
    captureAll audited limits (evs ++ more)
      = more.foldl (captureEvent audited limits) (captureAll audited limits evs) := by
  unfold captureAll
  rw [List.foldl_append]

/-- Once set, the error stays. -/
theorem captureAll_error_append {evs : List Event} {e : CaptureError}
    (h : (captureAll audited limits evs).error = some e) (more : List Event) :
    (captureAll audited limits (evs ++ more)).error = some e := by
  rw [captureAll_append, foldl_captureEvent_error audited limits (by rw [h]; rfl), h]

theorem captureAll_error_of_append {evs more : List Event}
    (h : (captureAll audited limits (evs ++ more)).error = none) :
    (captureAll audited limits evs).error = none := by
  cases herror : (captureAll audited limits evs).error with
  | none => rfl
  | some e =>
    rw [captureAll_error_append herror more] at h
    cases h

/-- The buffer at the end holds the event that came after `before`. -/
def Represented (audited : List String) (limits : CaptureLimits) (before : List Event)
    (ev : Event) (changes : List BufferedChange) : Prop :=
  ∃ i c c', (captureAll audited limits (before ++ [ev])).changes[i]? = some c ∧
    Holds (captureAll audited limits before) ev i c ∧ changes[i]? = some c' ∧ Renewed c c'

/-- Without an error, every event of a captured table is held. -/
theorem represented_of_error_none {evs before after : List Event}
    (h : (captureAll audited limits evs).error = none) (hevs : evs = before ++ ev :: after)
    (hcap : captured audited ev.table = true) :
    Represented audited limits before ev (captureAll audited limits evs).changes := by
  subst hevs
  rw [← List.singleton_append, ← List.append_assoc] at h ⊢
  have hev : (captureAll audited limits (before ++ [ev])).error = none :=
    captureAll_error_of_append h
  have hbefore : (captureAll audited limits before).error = none :=
    captureAll_error_of_append hev
  have hstep : captureAll audited limits (before ++ [ev])
      = captureEvent audited limits (captureAll audited limits before) ev :=
    captureAll_append audited limits before [ev]
  obtain ⟨herror, -⟩ | ⟨-, i, c, hc, hholds⟩ := captureEvent_held limits hcap hbefore
  · rw [← hstep] at herror
    exact absurd hev herror
  · rw [← hstep] at hc
    have hgrows := grows_foldl audited limits after (captureAll audited limits (before ++ [ev]))
    rw [← captureAll_append] at hgrows
    obtain ⟨c', hc', hrenewed⟩ := hgrows i c hc
    exact ⟨i, c, c', hc, hholds, hc', hrenewed⟩

/-! ### The flush -/

/-- The flush of a buffer with an error fails. -/
theorem flushCaptured_error {e : CaptureError} (h : g.error = some e)
    (reads : String → TableReads) (actor : AuditActor) :
    ∃ err, flushCaptured reads g actor = .error err := by
  unfold flushCaptured
  rw [h]
  cases e with
  | limitExceeded m => exact ⟨_, rfl⟩
  | internal m => exact ⟨_, rfl⟩

/-- What a history row and a buffered change are both about. -/
abbrev Mark := String × Int64 × HistoryOp

def HistoryRow.mark (r : HistoryRow) : Mark :=
  (r.collection, r.recordId, r.op)

def BufferedChange.mark (c : BufferedChange) : Mark :=
  (c.table, c.rowid, c.op)

/-- The changes that the flush writes: those of tables that are audited when it runs. -/
def toWrite (reads : String → TableReads) (changes : List BufferedChange) :
    List BufferedChange :=
  changes.filter (fun c => (reads c.table).auditEnabled)

theorem loadTableProjection_eq_none {reads : String → TableReads} {table : String}
    (h : loadTableProjection reads table = .ok none) : (reads table).auditEnabled = false := by
  unfold loadTableProjection at h
  split at h
  · next haudit => exact Bool.not_eq_true' _ ▸ haudit
  · obtain ⟨colNames, -, h⟩ := Except.bind_eq_ok_iff.mp h
    split at h
    · cases h
    · obtain ⟨vectorNames, -, h⟩ := Except.bind_eq_ok_iff.mp h
      cases h

theorem loadTableProjection_eq_some {reads : String → TableReads} {table : String}
    {proj : TableProjection} (h : loadTableProjection reads table = .ok (some proj)) :
    (reads table).auditEnabled = true := by
  unfold loadTableProjection at h
  split at h
  · cases h
  · next haudit => simpa using haudit

/-- A flush that succeeds has written one row for each change of an audited table, in order. -/
theorem flushChanges_marks {reads : String → TableReads} {actor : AuditActor}
    {changes : List BufferedChange} :
    ∀ {rows : List HistoryRow}, flushChanges reads actor changes = .ok rows →
      rows.map HistoryRow.mark = (toWrite reads changes).map BufferedChange.mark := by
  induction changes with
  | nil =>
    intro rows h
    obtain rfl := Except.ok.inj h
    rfl
  | cons c changes ih =>
    intro rows h
    rw [flushChanges] at h
    obtain ⟨proj, hproj, h⟩ := Except.bind_eq_ok_iff.mp h
    cases proj with
    | none =>
      -- the audit of the table was turned off
      have hskip : toWrite reads (c :: changes) = toWrite reads changes := by
        simp [toWrite, loadTableProjection_eq_none hproj]
      rw [hskip]
      exact ih h
    | some proj =>
      have hwrite : toWrite reads (c :: changes) = c :: toWrite reads changes := by
        simp [toWrite, loadTableProjection_eq_some hproj]
      rw [hwrite]
      obtain ⟨oldJson, -, h⟩ := Except.bind_eq_ok_iff.mp h
      obtain ⟨newJson, -, h⟩ := Except.bind_eq_ok_iff.mp h
      obtain ⟨rest, hrest, h⟩ := Except.bind_eq_ok_iff.mp h
      obtain rfl := Except.ok.inj h
      rw [List.map_cons, List.map_cons, ih hrest]
      rfl

theorem flushCaptured_ok {reads : String → TableReads} {actor : AuditActor}
    {rows : List HistoryRow} (h : flushCaptured reads g actor = .ok rows) :
    g.error = none ∧
      rows.map HistoryRow.mark = (toWrite reads g.changes).map BufferedChange.mark := by
  cases herror : g.error with
  | some e =>
    obtain ⟨err, herr⟩ := flushCaptured_error herror reads actor
    rw [h] at herr
    cases herr
  | none =>
    refine ⟨rfl, ?_⟩
    unfold flushCaptured at h
    rw [herror] at h
    dsimp only at h
    split at h
    · next hflush =>
      obtain rfl := Except.ok.inj h
      exact flushChanges_marks hflush
    · cases h

/-- Nothing is captured where no table is audited. -/
theorem captureAll_nil (limits : CaptureLimits) (evs : List Event) :
    captureAll [] limits evs = {} := by
  unfold captureAll
  induction evs with
  | nil => rfl
  | cons ev evs ih =>
    have hcap : captured [] ev.table = false := by simp [captured]
    rw [List.foldl_cons, captureEvent_skip limits _ hcap, ih]

end Drust.RecordHistory

namespace Drust.ExecWrite

open Sql

open RecordHistory (TableReads AuditActor HistoryRow)

variable {δ : Type} (pf : Platform) (st : Steps δ) {c₀ : Conn δ} {e : Exec δ}

/-! ### The executor -/

/-- A call that has not committed: it answers with no outcome, and what it leaves is what it
found, or what an aborted transaction leaves. -/
structure Discarded (c₀ : Conn δ) (out : RpcResult × Exec δ) : Prop where
  answer : ∀ o, out.1 ≠ .ok (.ok o)
  db : out.2.conn.db = c₀.db ∨ out.2.conn.db = c₀.toTxn.abort.db

/-- The history was not written: the flush failed, or it rolled the transaction back. -/
def FlushFails (st : Steps δ) : Prop :=
  ∀ db, st.flush ≠ .done db

theorem discarded_unwind (hauth : e.conn.authorizer = .allowAll) (hin : InSavepoint c₀ e)
    {ret : RpcResult} (hret : ∀ o, ret ≠ .ok (.ok o)) : Discarded c₀ (unwind st ret e) := by
  obtain ⟨r, t, ok, heq, hcases⟩ := giveUp_spec st hauth hin
  unfold unwind
  rw [heq]
  obtain ⟨-, rfl, rfl⟩ | ⟨-, ⟨m, rfl⟩, ht⟩ := hcases
  · exact ⟨hret, .inl rfl⟩
  · refine ⟨fun o => nofun, ?_⟩
    obtain ht | rfl := ht
    · exact .inl ht
    · exact .inr rfl

theorem discarded_resolve (hauth : e.conn.authorizer = .allowAll) (hin : InSavepoint c₀ e)
    (dryRun : Bool) (err : RpcStatementError) (p : Progress) :
    Discarded c₀ (resolve st dryRun (some err) p e) := by
  obtain ⟨r, t, ok, heq, hcases⟩ := giveUp_spec st hauth hin
  unfold resolve
  simp only [Option.isSome_some, Bool.true_or, if_true, heq]
  obtain ⟨-, rfl, rfl⟩ | ⟨-, ⟨m, rfl⟩, ht⟩ := hcases
  · exact ⟨fun o => nofun, .inl rfl⟩
  · refine ⟨fun o => nofun, ?_⟩
    obtain ht | rfl := ht
    · exact .inl ht
    · exact .inr rfl

theorem flushFailure_ne (index : Nat) (err : RecordHistory.FlushError) (o : WriteRpcOutcome) :
    flushFailure index err ≠ .ok (.ok o) := by
  cases err with
  | limitExceeded m => exact nofun
  | db m => exact nofun

theorem discarded_flushCaptured (hflush : FlushFails st) (hauth : e.conn.authorizer = .allowAll)
    (hin : InSavepoint c₀ e) (tier : Int) (dryRun : Bool) {error : Option RpcStatementError}
    (hopen : error = none → Open c₀ e) (p : Progress) :
    Discarded c₀ (flushCaptured st true tier dryRun error p e) := by
  unfold flushCaptured
  cases error with
  | some err =>
    -- a statement failed: the flush is passed over, and the savepoint is given up all the same
    simp only [Option.isNone_some, Bool.false_and, Bool.false_eq_true, if_false, recheckQuota]
    exact discarded_resolve st hauth hin dryRun err p
  | none =>
    have hlost : InSavepoint c₀ (e.setTxn e.conn.toTxn.abort) := .inr (Txn.abort_push (hopen rfl))
    simp only [Option.isNone_none, Bool.and_self, if_true]
    cases hst : st.flush with
    | done db => exact absurd hst (hflush db)
    | failed db err =>
      exact discarded_unwind st (e := e.setDb db) hauth (.inl (hopen rfl)) (flushFailure_ne _ err)
    | aborted err =>
      exact discarded_unwind st (e := e.setTxn e.conn.toTxn.abort) hauth hlost
        (flushFailure_ne _ err)

theorem discarded_runBody (hflush : FlushFails st) (hopen : Open c₀ e)
    (hauth : e.conn.authorizer = .writable) (sql : String) (bound : List (String × BoundValue))
    (tier : Int) (dryRun : Bool) :
    Discarded c₀ (runBody pf st sql bound true tier dryRun e) := by
  unfold runBody
  split
  · obtain ⟨r, e', heq, htxn, -⟩ := removePreupdateCapture_spec st c₀ e
    have hin : InSavepoint c₀ e' := InSavepoint.congr (.inl hopen) htxn
    simp only [heq, if_true]
    exact discarded_unwind st (e := detachAuthorizer e') rfl hin (fun o => nofun)
  · next stmts _ =>
    obtain ⟨error, p, t, heq, hin, hnone⟩ := executeAll_open pf st bound stmts hopen hauth 0 {}
    obtain ⟨r, e', heq', htxn, -⟩ := removePreupdateCapture_spec st c₀ (e.setTxn t)
    have hin' : InSavepoint c₀ e' := hin.congr htxn
    rw [heq]
    simp only [heq', if_true]
    cases r with
    | error m => exact discarded_unwind st (e := detachAuthorizer e') rfl hin' (fun o => nofun)
    | ok u =>
      refine discarded_flushCaptured st (e := detachAuthorizer e') hflush rfl hin' tier dryRun ?_ p
      intro herror
      show e'.conn.toTxn.savepoints = _
      rw [htxn]
      exact hnone herror

theorem discarded_runInSavepoint (hflush : FlushFails st) (c₀ : Conn δ) {e : Exec δ}
    (hauth : e.conn.authorizer = .allowAll) (htxn : e.conn.toTxn = c₀.toTxn) (sql : String)
    (bound : List (String × BoundValue)) {audited : List String} (haudited : audited ≠ [])
    (tier : Int) (dryRun : Bool) :
    Discarded c₀ (runInSavepoint pf st sql bound audited tier dryRun e) := by
  unfold runInSavepoint execSavepoint
  rw [show deniesControl e = false by simp [deniesControl, hauth]]
  simp only [Bool.false_eq_true, if_false]
  cases st.savepoint with
  | error m => exact ⟨fun o => by simp, .inl (by rw [htxn])⟩
  | ok u =>
    simp only [List.isEmpty_eq_false_iff.mpr haudited, Bool.false_eq_true, if_false]
    generalize he' : attachWritableAuthorizer
      (e.setTxn (e.conn.toTxn.savepoint savepointName)) = e'
    have hopen : Open c₀ e' := by
      subst he'
      show (savepointName, e.conn.db) :: e.conn.savepoints = _
      rw [htxn]
    have hauth' : e'.conn.authorizer = .writable := by rw [← he']; rfl
    cases hins : installPreupdateCapture st audited e' with
    | error m =>
      exact discarded_unwind st (e := detachAuthorizer e') rfl (.inl hopen) (fun o => by simp)
    | ok e'' =>
      obtain ⟨htxn', hauth''⟩ := installPreupdateCapture_spec st hins
      have hopen' : Open c₀ e'' := by
        rw [Open, htxn']
        exact hopen
      exact discarded_runBody pf st hflush hopen' (hauth''.trans hauth') sql bound tier dryRun

/-- A call on an audited tenant that does not get its history written does not commit. -/
theorem discarded_runWriteRpc (hflush : FlushFails st) {audited : List String}
    (hread : st.auditedDataTables = .ok audited) (haudited : audited ≠ []) (sql : String)
    (bound : List (String × BoundValue)) (tier : Int) (conn : Conn δ) :
    Discarded conn (runWriteRpc pf st sql bound false tier conn) := by
  unfold runWriteRpc
  simp only [Bool.false_eq_true, if_false, hread]
  split
  · exact ⟨fun o => nofun, .inl rfl⟩
  · exact ⟨fun o => nofun, .inl rfl⟩
  · split
    · exact ⟨fun o => nofun, .inl rfl⟩
    · exact discarded_runInSavepoint pf st hflush conn (e := detachAuthorizer { conn := conn }) rfl
        rfl sql bound haudited tier false

/-- The flush step of the executor fails where the flush of the buffer does. It may also fail
where the insert of a history row does. -/
def FlushesAs (st : Steps δ) (flush : Except RecordHistory.FlushError (List HistoryRow)) : Prop :=
  ∀ err, flush = .error err → (∃ db, st.flush = .failed db err) ∨ st.flush = .aborted err

open RecordHistory (captureAll captured Represented CaptureLimits toWrite)

/-- Audit capture fails closed. For every pair of limits and every sequence of events: while
the buffer has no error, both counts are within the limits that are set, the tracked bytes are
those of the buffered changes, and every event of a captured table is held. An error stays, and
the flush fails with it. So a call that commits its changes, or answers with an outcome, has
an event buffer without an error, and a history row for each buffered change of a table that
is audited. -/
theorem auditCapture_failsClosed (audited : List String) (limits : CaptureLimits)
    (evs : List RecordHistory.Event) :
    let g := captureAll audited limits evs
    (g.error = none →
      (limits.maxRows ≠ 0 → g.changes.length ≤ limits.maxRows) ∧
      g.approxBytes = (g.changes.map RecordHistory.changeBytes).sum ∧
      (limits.maxBytes ≠ 0 → g.approxBytes ≤ limits.maxBytes) ∧
      ∀ before ev after, evs = before ++ ev :: after → captured audited ev.table = true →
        Represented audited limits before ev g.changes) ∧
    (∀ e, g.error = some e →
      (∀ more, (captureAll audited limits (evs ++ more)).error = some e) ∧
      ∀ reads actor, ∃ err, RecordHistory.flushCaptured reads g actor = .error err) ∧
    ∀ (δ : Type) (pf : Platform) (st : Steps δ) (sql : String)
      (bound : List (String × BoundValue)) (tier : Int) (conn : Conn δ)
      (reads : String → TableReads) (actor : AuditActor),
      st.auditedDataTables = .ok audited →
      FlushesAs st (RecordHistory.flushCaptured reads g actor) →
      let out := runWriteRpc pf st sql bound false tier conn
      (∃ o, out.1 = .ok (.ok o)) ∨
        (out.2.conn.db ≠ conn.db ∧ out.2.conn.db ≠ conn.toTxn.abort.db) →
      g.error = none ∧
        ∃ rows, RecordHistory.flushCaptured reads g actor = .ok rows ∧
          rows.map RecordHistory.HistoryRow.mark
            = (toWrite reads g.changes).map RecordHistory.BufferedChange.mark := by
  intro g
  have haccounted := RecordHistory.Accounted.captureAll audited limits evs
  refine ⟨?_, ?_, ?_⟩
  · intro hok
    refine ⟨haccounted.rows, haccounted.bytes_eq, haccounted.bytes_le, ?_⟩
    intro before ev after hevs hcap
    exact RecordHistory.represented_of_error_none hok hevs hcap
  · intro e he
    exact ⟨RecordHistory.captureAll_error_append he, RecordHistory.flushCaptured_error he⟩
  · intro δ pf st sql bound tier conn reads actor hread hflushes out hcommitted
    cases hflush : RecordHistory.flushCaptured reads g actor with
    | ok rows =>
      obtain ⟨hok, hrows⟩ := RecordHistory.flushCaptured_ok hflush
      exact ⟨hok, rows, rfl, hrows⟩
    | error err =>
      -- the flush fails, so something is audited and the call is discarded
      have haudited : audited ≠ [] := by
        rintro rfl
        have hg : g = {} := RecordHistory.captureAll_nil limits evs
        rw [hg] at hflush
        cases hflush
      have hfails : FlushFails st := by
        intro db hdone
        obtain ⟨db', h⟩ | h := hflushes err hflush
        · rw [hdone] at h
          cases h
        · rw [hdone] at h
          cases h
      have hdiscarded : Discarded conn out :=
        discarded_runWriteRpc pf st hfails hread haudited sql bound tier conn
      obtain ⟨o, ho⟩ | ⟨hne, habort⟩ := hcommitted
      · exact absurd ho (hdiscarded.answer o)
      · exact absurd hdiscarded.db (by simp [hne, habort])

/-- A body of one insert into an audited table. -/
def auditedInsert : Steps Nat where
  usage := .ok 4096
  auditedDataTables := .ok ["posts"]
  snapshotSearchTables := .ok ()
  savepoint := .ok ()
  installCapture := .ok ()
  statement := fun _ _ _ rows => .done (rows + 1) (.changed 1 1)
  removeCapture := .ok ()
  flush := .done 1
  usageAgain := .ok 4096
  release := .done

def insertPost : RecordHistory.Event :=
  ⟨"posts", .insert 1 (.ok [.integer 1, .text "draft", .null])⟩

theorem auditCapture_failsClosed_insert :
    let g := captureAll ["posts"] ⟨1, 100⟩ [insertPost]
    g.error = none ∧ g.changes.length ≤ 1 ∧ g.approxBytes ≤ 100 ∧
      Represented ["posts"] ⟨1, 100⟩ [] insertPost g.changes ∧
      ∃ rows, RecordHistory.flushCaptured RecordHistory.postsReads g RecordHistory.postsActor
        = .ok rows ∧ rows.map RecordHistory.HistoryRow.mark = [("posts", 1, .insert)] := by
  intro g
  obtain ⟨hwithin, -, hcommits⟩ := auditCapture_failsClosed ["posts"] ⟨1, 100⟩ [insertPost]
  have hflushes : FlushesAs auditedInsert
      (RecordHistory.flushCaptured RecordHistory.postsReads g RecordHistory.postsActor) := by
    intro err herr
    cases herr
  obtain ⟨hok, rows, hflush, hrows⟩ :=
    hcommits Nat ⟨fun _ => true, fun _ => ""⟩ auditedInsert
      "INSERT INTO posts (title) VALUES ('draft')" [] 1 { db := 0 } RecordHistory.postsReads
      RecordHistory.postsActor rfl hflushes (.inl ⟨_, rfl⟩)
  obtain ⟨hlength, -, hbytes, hheld⟩ := hwithin hok
  exact ⟨hok, hlength (by decide), hbytes (by decide), hheld [] insertPost [] rfl (by decide),
    rows, hflush, hrows⟩

/-- Without a limit on the rows, a buffer of one change is without an error, and has more than
zero rows. -/
theorem captureAll_unlimited :
    ¬ ∀ (audited : List String) (limits : CaptureLimits) (evs : List RecordHistory.Event),
      (captureAll audited limits evs).error = none →
        (captureAll audited limits evs).changes.length ≤ limits.maxRows := by
  intro h
  have hone := h ["posts"] ⟨0, 0⟩ [⟨"posts", .insert 1 (.ok [.integer 1])⟩] (by decide)
  revert hone
  decide

end Drust.ExecWrite
