import Drust.Lib.Journal
import Drust.Storage.RecordHistory

/-!
# The history replays to the committed state

The events that the hook sees are the changes that happen to the tables. Read as a journal
(`Event.entry`) they lead from the contents before the call to those after it. The buffer is
another journal of the same two contents: where the hook merges an event into a change that
it has already buffered, the journal is rewritten behind its end, and the general lemma about
that (`Journal.run_renew`) applies because the change it rewrites is the last one that put
the row (`rposition_spec`).

The flush projects the images of the buffer one by one, and a replay of images is a replay of
their projections (`Journal.run_map`).
-/

namespace Drust.RecordHistory

open Journal Transition

/-! ### Events as changes of the tables -/

abbrev Contents := Tables String Int64 Row

/-- The change that an event announces. A trigger's update keeps the row id. -/
def Event.entry (ev : Event) : Option (Entry String Int64 Row) :=
  match ev.case with
  | .insert r (.ok new) => some ⟨ev.table, .insert r new⟩
  | .delete r (.ok old) => some ⟨ev.table, .delete r old⟩
  | .update depth src r (.ok old) (.ok new) =>
    if depth = 0 ∨ src = r then some ⟨ev.table, .update src r old new⟩ else none
  | _ => none

/-- An event is consistent with the contents when the old image is that of the row, and a new
row is put where none is. -/
def happen (C : Contents) (ev : Event) : Option Contents :=
  ev.entry.bind (apply C)

/-! ### The buffer as a journal -/

def image (row : Row) : List CapturedValue :=
  row.map CapturedValue.fromRef

/-- How an entry is buffered. -/
def bufferOf (e : Entry String Int64 Row) : BufferedChange :=
  match e.change with
  | .insert r new =>
    { table := e.table, op := .insert, rowid := r, old := none, new := some (image new) }
  | .delete r old =>
    { table := e.table, op := .delete, rowid := r, old := some (image old), new := none }
  | .update _ r old new =>
    { table := e.table, op := .update, rowid := r, old := some (image old),
      new := some (image new) }

/-- What an event that announces a change can be. -/
theorem entry_cases {ev : Event} {e : Entry String Int64 Row} (h : ev.entry = some e) :
    e.table = ev.table ∧ bufferedChange ev = .ok (bufferOf e) ∧
      (triggerUpdate ev.case = none ∨
        ∃ r old new, e.change = .update r r old new ∧
          triggerUpdate ev.case = some (r, .ok (image new))) := by
  obtain ⟨table, case⟩ := ev
  unfold Event.entry at h
  split at h
  · next r new hcase =>
    obtain rfl : case = _ := hcase
    obtain rfl := Option.some.inj h
    exact ⟨rfl, rfl, .inl rfl⟩
  · next r old hcase =>
    obtain rfl : case = _ := hcase
    obtain rfl := Option.some.inj h
    exact ⟨rfl, rfl, .inl rfl⟩
  · next depth src r old new hcase =>
    obtain rfl : case = _ := hcase
    split at h
    · next hdepth =>
      obtain rfl := Option.some.inj h
      refine ⟨rfl, rfl, ?_⟩
      by_cases hpos : 0 < depth
      · obtain rfl : src = r := hdepth.resolve_left hpos.ne'
        exact .inr ⟨src, old, new, rfl, by simp [triggerUpdate, hpos, copy, image, Except.map]⟩
      · exact .inl (by simp [triggerUpdate, hpos])
    · cases h
  · cases h

theorem pendingPut_bufferOf {e : Entry String Int64 Row} {t : String} {r : Int64} :
    pendingPut t r (bufferOf e) = true ↔ e.Puts t r := by
  unfold pendingPut bufferOf Entry.Puts
  cases hchange : e.change <;> simp [Change.target]

theorem bufferOf_renew {e : Entry String Int64 Row} {t : String} {r : Int64} (h : e.Puts t r)
    (y : Row) :
    bufferOf { e with change := e.change.renew y } = (bufferOf e).withNew (image y) := by
  obtain ⟨table, change⟩ := e
  cases change with
  | delete r' old => exact absurd h.2 (by simp [Change.target])
  | _ => rfl

/-- The last position with a property: it has it, and none after it does. -/
theorem rposition_spec {α β : Type} {p : β → Bool} {f : α → β} {l : List α} {i : Nat}
    (h : rposition p (l.map f) = some i) :
    ∃ pre x post, l = pre ++ x :: post ∧ pre.length = i ∧ p (f x) = true ∧
      ∀ y ∈ post, p (f y) = false := by
  -- without a later position there is none in the rest of the list
  have hnone : ∀ {l : List α}, rposition p (l.map f) = none → ∀ y ∈ l, p (f y) = false := by
    intro l
    induction l with
    | nil => simp
    | cons x l ih =>
      intro h
      rw [List.map_cons, rposition] at h
      split at h
      · cases h
      · next hrest =>
        split at h
        · cases h
        · next hx => exact List.forall_mem_cons.mpr ⟨by simpa using hx, ih hrest⟩
  induction l generalizing i with
  | nil => cases h
  | cons x l ih =>
    rw [List.map_cons, rposition] at h
    split at h
    · next j hj =>
      obtain ⟨pre, y, post, rfl, rfl, hy, hpost⟩ := ih hj
      exact ⟨x :: pre, y, post, rfl, Option.some.inj h, hy, hpost⟩
    · next hrest =>
      split at h
      · next hx => exact ⟨[], x, l, rfl, Option.some.inj h, hx, hnone hrest⟩
      · cases h

theorem modify_append_cons {α : Type} (pre : List α) (x : α) (post : List α) (f : α → α) :
    (pre ++ x :: post).modify pre.length f = pre ++ f x :: post := by
  induction pre with
  | nil => rfl
  | cons y pre ih => simp [ih]

/-! ### Buffering -/

/-- A limit of the buffer has been hit. -/
def CaptureBuffer.LimitHit (g : CaptureBuffer) : Prop :=
  ∃ message, g.error = some (.limitExceeded message)

theorem pushChange_cases (limits : CaptureLimits) (g : CaptureBuffer) (c : BufferedChange) :
    (pushChange limits g (.ok c)).LimitHit ∨
      (pushChange limits g (.ok c)).error = g.error ∧
        (pushChange limits g (.ok c)).changes = g.changes ++ [c] := by
  simp only [pushChange]
  split
  · exact .inl ⟨_, rfl⟩
  split
  · exact .inl ⟨_, rfl⟩
  · exact .inr ⟨rfl, rfl⟩

theorem mergeChange_cases (limits : CaptureLimits) (g : CaptureBuffer) (idx : Nat)
    (new : List CapturedValue) :
    (mergeChange limits g idx new).LimitHit ∨
      (mergeChange limits g idx new).error = g.error ∧
        (mergeChange limits g idx new).changes
          = g.changes.modify idx (BufferedChange.withNew new) := by
  simp only [mergeChange]
  split
  · exact .inl ⟨_, rfl⟩
  · exact .inr ⟨rfl, rfl⟩

section Tracks

variable {audited : List String} {C₀ C C' : Contents} {g : CaptureBuffer}
  {fits : String → Row → Prop}

/-- The buffer is a journal from the contents before the call to the present ones, as far as
the audited tables go; its images are those that the events showed. -/
def Tracks (audited : List String) (fits : String → Row → Prop) (C₀ C : Contents)
    (changes : List BufferedChange) : Prop :=
  ∃ es D, changes = es.map bufferOf ∧ run apply C₀ es = some D ∧
    (∀ t, captured audited t = true → D t = C t) ∧
    ∀ e ∈ es, captured audited e.table = true ∧ ∀ row ∈ e.change.images, fits e.table row

/-- An event of a table that the hook passes over. -/
theorem Tracks.skip (h : Tracks audited fits C₀ C g.changes) {e : Entry String Int64 Row}
    (hstep : apply C e = some C') (hskip : captured audited e.table = false) :
    Tracks audited fits C₀ C' g.changes := by
  obtain ⟨es, D, hes, hrun, hD, hall⟩ := h
  refine ⟨es, D, hes, hrun, ?_, hall⟩
  intro t ht
  have hne : t ≠ e.table := by
    rintro rfl
    rw [hskip] at ht
    cases ht
  rw [hD t ht, apply_of_ne hstep hne]

/-- A change at the end of the journal. -/
theorem Tracks.push (h : Tracks audited fits C₀ C g.changes) {e : Entry String Int64 Row}
    (hstep : apply C e = some C') (hcap : captured audited e.table = true)
    (hfits : ∀ row ∈ e.change.images, fits e.table row) :
    Tracks audited fits C₀ C' (g.changes ++ [bufferOf e]) := by
  obtain ⟨es, D, hes, hrun, hD, hall⟩ := h
  obtain ⟨D', hD', htable⟩ := apply_congr hstep (hD e.table hcap)
  refine ⟨es ++ [e], D', by rw [hes, List.map_append, List.map_singleton], ?_, ?_, ?_⟩
  · rw [run_append, hrun, Option.bind_some, run, hD']
    rfl
  · intro t ht
    by_cases hte : t = e.table
    · rw [hte]
      exact htable
    · rw [apply_of_ne hD' hte, apply_of_ne hstep hte, hD t ht]
  · intro e' he'
    obtain he' | he' := List.mem_append.mp he'
    · exact hall e' he'
    · rw [List.mem_singleton.mp he']
      exact ⟨hcap, hfits⟩

/-- A trigger's update, merged into the last change that put the row. -/
theorem Tracks.merge (h : Tracks audited fits C₀ C g.changes) {t : String} {r : Int64}
    {old new : Row} (hstep : apply C ⟨t, .update r r old new⟩ = some C')
    (hcap : captured audited t = true) (hfits : fits t new) {idx : Nat}
    (hidx : rposition (pendingPut t r) g.changes = some idx) :
    Tracks audited fits C₀ C' (g.changes.modify idx (BufferedChange.withNew (image new))) := by
  obtain ⟨es, D, hes, hrun, hD, hall⟩ := h
  rw [hes] at hidx ⊢
  obtain ⟨pre, e, post, rfl, rfl, he, hpost⟩ := rposition_spec hidx
  rw [pendingPut_bufferOf] at he
  -- the row is there: the event showed its image
  have hC : C t r = some old ∧ C' = C.set t r (some new) := by
    simp only [apply, true_or, and_true] at hstep
    split at hstep
    · next hold => exact ⟨hold, by rw [← Option.some.inj hstep, Tables.set_set]⟩
    · cases hstep
  have hlive : D t r ≠ none := by
    rw [hD t hcap, hC.1]
    exact Option.some_ne_none old
  have hput : ∀ e ∈ post, ¬ e.Puts t r := by
    intro e' he' hputs
    have := hpost e' he'
    rw [pendingPut_bufferOf.mpr hputs] at this
    cases this
  refine ⟨pre ++ { e with change := e.change.renew new } :: post, D.set t r (some new), ?_,
    run_renew hrun he hput hlive, ?_, ?_⟩
  · rw [List.map_append, List.map_cons, List.map_append, List.map_cons, bufferOf_renew he,
      ← modify_append_cons _ (bufferOf e), List.length_map]
  · intro t' ht'
    funext r'
    rw [hC.2]
    unfold Tables.set
    rw [hD t' ht']
  · intro e' he'
    obtain he' | he' := List.mem_append.mp he'
    · exact hall e' (List.mem_append_left _ he')
    obtain rfl | he' := List.mem_cons.mp he'
    · obtain ⟨hcape, hfitse⟩ := hall e (List.mem_append_right _ List.mem_cons_self)
      refine ⟨hcape, ?_⟩
      intro row hrow
      obtain rfl | hrow := Change.mem_images_renew hrow
      · exact he.1 ▸ hfits
      · exact hfitse row hrow
    · exact hall e' (List.mem_append_right _ (List.mem_cons_of_mem _ he'))

/-- One event: the buffer goes on tracking the tables, unless the event hits a limit. -/
theorem captureEvent_tracks (limits : CaptureLimits) {ev : Event} {e : Entry String Int64 Row}
    (hev : ev.entry = some e) (hstep : apply C e = some C')
    (hfits : captured audited e.table = true → ∀ row ∈ e.change.images, fits e.table row)
    (hok : g.error = none) (htracks : Tracks audited fits C₀ C g.changes) :
    (captureEvent audited limits g ev).LimitHit ∨
      (captureEvent audited limits g ev).error = none ∧
        Tracks audited fits C₀ C' (captureEvent audited limits g ev).changes := by
  obtain ⟨htable, hchange, htrigger⟩ := entry_cases hev
  unfold captureEvent
  cases hcap : captured audited ev.table with
  | false => exact .inr ⟨hok, htracks.skip hstep (htable ▸ hcap)⟩
  | true =>
    have hcape : captured audited e.table = true := htable ▸ hcap
    have hpush : (pushChange limits g (bufferedChange ev)).LimitHit ∨
        (pushChange limits g (bufferedChange ev)).error = none ∧
          Tracks audited fits C₀ C' (pushChange limits g (bufferedChange ev)).changes := by
      rw [hchange]
      refine (pushChange_cases limits g _).imp_right ?_
      rintro ⟨herror, hchanges⟩
      rw [herror, hchanges]
      exact ⟨hok, htracks.push hstep hcape (hfits hcape)⟩
    simp only [Bool.not_true, Bool.false_eq_true, if_false, hok, Option.isSome_none]
    obtain hnone | ⟨r, old, new, hupdate, hsome⟩ := htrigger
    · simp only [hnone]
      exact hpush
    · simp only [hsome]
      split
      · next idx hidx =>
        have hnew : fits e.table new := hfits hcape new (by simp [hupdate, Change.images])
        have he : e = ⟨e.table, .update r r old new⟩ := by rw [← hupdate]
        rw [he] at hstep
        rw [← htable] at hidx
        refine (mergeChange_cases limits g idx (image new)).imp_right ?_
        rintro ⟨herror, hchanges⟩
        rw [herror, hchanges]
        exact ⟨hok, htracks.merge hstep hcape hnew hidx⟩
      · exact hpush

/-- A buffer with an error is not touched any more. -/
theorem captureEvent_error (audited : List String) (limits : CaptureLimits) {g : CaptureBuffer}
    (h : g.error.isSome = true) (ev : Event) : captureEvent audited limits g ev = g := by
  simp only [captureEvent, h, if_true, ite_self]

theorem foldl_captureEvent_error (audited : List String) (limits : CaptureLimits)
    {g : CaptureBuffer} (h : g.error.isSome = true) (evs : List Event) :
    evs.foldl (captureEvent audited limits) g = g := by
  induction evs with
  | nil => rfl
  | cons ev evs ih => rw [List.foldl_cons, captureEvent_error audited limits h, ih]

/-- The images of the events of captured tables are as the flush expects them. -/
def Shown (audited : List String) (fits : String → Row → Prop) (evs : List Event) : Prop :=
  ∀ ev ∈ evs, ∀ e ∈ ev.entry, captured audited e.table = true →
    ∀ row ∈ e.change.images, fits e.table row

/-- The events of a call: the buffer tracks the tables to the end, unless a limit is hit. -/
theorem foldl_captureEvent_tracks (limits : CaptureLimits) {evs : List Event} :
    ∀ {C : Contents} {g : CaptureBuffer}, run happen C evs = some C' → Shown audited fits evs →
      g.error = none → Tracks audited fits C₀ C g.changes →
      (evs.foldl (captureEvent audited limits) g).LimitHit ∨
        (evs.foldl (captureEvent audited limits) g).error = none ∧
          Tracks audited fits C₀ C' (evs.foldl (captureEvent audited limits) g).changes := by
  induction evs with
  | nil =>
    intro C g hrun _ hok htracks
    obtain rfl := Option.some.inj hrun
    exact .inr ⟨hok, htracks⟩
  | cons ev evs ih =>
    intro C g hrun hshown hok htracks
    obtain ⟨C₁, hstep, hrun⟩ := run_cons hrun
    obtain ⟨e, hev, hstep⟩ := Option.bind_eq_some_iff.mp hstep
    obtain ⟨hfits, hshown⟩ := List.forall_mem_cons.mp hshown
    rw [List.foldl_cons]
    obtain ⟨message, hhit⟩ | ⟨hok, htracks⟩ :=
      captureEvent_tracks limits hev hstep (hfits e hev) hok htracks
    · -- the limit stays hit to the end
      rw [foldl_captureEvent_error audited limits (by rw [hhit]; rfl)]
      exact .inl ⟨message, hhit⟩
    · exact ih hrun hshown hok htracks

end Tracks

/-! ### The flush -/

section Flush

variable {reads : String → TableReads}

/-- The record that the history shows for a row of a table. -/
def record (reads : String → TableReads) (t : String) (row : Row) : Json :=
  match loadTableProjection reads t with
  | .ok (some proj) => projectColumns proj (image row)
  | _ => .null

/-- The flush finds the columns of the table, and the row has as many values. -/
def Fits (reads : String → TableReads) (t : String) (row : Row) : Prop :=
  ∃ proj, loadTableProjection reads t = .ok (some proj) ∧ row.length = proj.colNames.length

/-- The history row of a change of records. Of an update it has the row id that the row is
put under. -/
def historyRow (actor : AuditActor) (e : Entry String Int64 Json) : HistoryRow :=
  match e.change with
  | .insert r new =>
    { collection := e.table, recordId := r, op := .insert, oldJson := none, newJson := some new,
      actor := actor }
  | .delete r old =>
    { collection := e.table, recordId := r, op := .delete, oldJson := some old, newJson := none,
      actor := actor }
  | .update _ r old new =>
    { collection := e.table, recordId := r, op := .update, oldJson := some old,
      newJson := some new, actor := actor }

theorem projectImage_image {t : String} {row : Row} {proj : TableProjection}
    (hproj : loadTableProjection reads t = .ok (some proj)) (hfits : Fits reads t row) :
    projectImage t proj (some (image row)) = .ok (some (record reads t row)) := by
  obtain ⟨proj', hproj', hlength⟩ := hfits
  obtain rfl : proj' = proj := Option.some.inj (Except.ok.inj (hproj'.symm.trans hproj))
  have hvalues : projectValues t (image row) proj' = .ok (projectColumns proj' (image row)) := by
    rw [projectValues, image, List.length_map, if_neg (not_not_intro hlength)]
  simp only [projectImage, hvalues, record, hproj]
  rfl

theorem flushChanges_cons {actor : AuditActor} {c : BufferedChange} {cs : List BufferedChange}
    {proj : TableProjection} {old new : Option Json} {rows : List HistoryRow}
    (hproj : loadTableProjection reads c.table = .ok (some proj))
    (hold : projectImage c.table proj c.old = .ok old)
    (hnew : projectImage c.table proj c.new = .ok new)
    (hrows : flushChanges reads actor cs = .ok rows) :
    flushChanges reads actor (c :: cs)
      = .ok ({ collection := c.table, recordId := c.rowid, op := c.op, oldJson := old,
               newJson := new, actor := actor } :: rows) := by
  simp only [flushChanges, hproj, bind, Except.bind, hold, hnew, hrows]

/-- Every change of the buffer is written, in order. -/
theorem flushChanges_bufferOf (actor : AuditActor) {es : List (Entry String Int64 Row)}
    (h : ∀ e ∈ es, ∀ row ∈ e.change.images, Fits reads e.table row) :
    flushChanges reads actor (es.map bufferOf)
      = .ok (es.map (fun e => historyRow actor (e.map (record reads)))) := by
  induction es with
  | nil => rfl
  | cons e es ih =>
    obtain ⟨he, hes⟩ := List.forall_mem_cons.mp h
    obtain ⟨table, change⟩ := e
    -- every change has an image, so the columns of its table are there
    have hproj : ∃ proj, loadTableProjection reads table = .ok (some proj) := by
      cases change with
      | insert r new => exact (he new (by simp [Change.images])).imp fun _ h => h.1
      | delete r old => exact (he old (by simp [Change.images])).imp fun _ h => h.1
      | update src r old new => exact (he old (by simp [Change.images])).imp fun _ h => h.1
    obtain ⟨proj, hproj⟩ := hproj
    have himage : ∀ row ∈ change.images,
        projectImage table proj (some (image row)) = .ok (some (record reads table row)) :=
      fun row hrow => projectImage_image hproj (he row hrow)
    rw [List.map_cons, List.map_cons]
    cases change with
    | insert r new =>
      exact flushChanges_cons hproj rfl (himage new (by simp [Change.images])) (ih hes)
    | delete r old =>
      exact flushChanges_cons hproj (himage old (by simp [Change.images])) rfl (ih hes)
    | update src r old new =>
      exact flushChanges_cons hproj (himage old (by simp [Change.images]))
        (himage new (by simp [Change.images])) (ih hes)

/-- The audit trail of a call. The events lead from `C₀` to `C₁`; the flush writes a history
row for each buffered change, in order, and replaying them on the records of `C₀` succeeds
(each old record is the one that the replay holds) and ends with the records of `C₁` in every
captured table. -/
theorem flushCaptured_replays {audited : List String} {limits : CaptureLimits}
    (actor : AuditActor) {C₀ C₁ : Contents} {evs : List Event}
    (hrun : run happen C₀ evs = some C₁) (hlimit : ¬ (captureAll audited limits evs).LimitHit)
    (hcolumns : Shown audited (Fits reads) evs) :
    ∃ es : List (Entry String Int64 Row),
      (captureAll audited limits evs).changes = es.map bufferOf ∧
      flushCaptured reads (captureAll audited limits evs) actor
        = .ok (es.map (fun e => historyRow actor (e.map (record reads)))) ∧
      ∃ D, run apply (C₀.map (record reads)) (es.map (Entry.map (record reads))) = some D ∧
        ∀ t, captured audited t = true → D t = C₁.map (record reads) t := by
  have htracks : Tracks audited (Fits reads) C₀ C₀ ({} : CaptureBuffer).changes :=
    ⟨[], C₀, rfl, rfl, fun _ _ => rfl, by simp⟩
  obtain hhit | ⟨herror, es, D, hes, hrun', hD, hall⟩ :=
    foldl_captureEvent_tracks limits hrun hcolumns rfl htracks
  · exact absurd hhit hlimit
  refine ⟨es, hes, ?_, D.map (record reads), run_map _ hrun', ?_⟩
  · have hflush := flushChanges_bufferOf actor (fun e he => (hall e he).2)
    have herror' : (captureAll audited limits evs).error = none := herror
    have hes' : (captureAll audited limits evs).changes = es.map bufferOf := hes
    rw [flushCaptured, herror', hes', hflush]
  · intro t ht
    funext r
    simp only [Tables.map, hD t ht]

def postsReads (_ : String) : TableReads where
  auditEnabled := true
  colNames := .ok ["id", "title", "updated_at"]
  vectorNames := .ok []

/-- An insert, an update that moves the row together with its trigger's update, and a delete. -/
def postsEvents : List Event :=
  [⟨"posts", .insert 1 (.ok [.integer 1, .text "draft", .null])⟩,
   ⟨"posts", .insert 2 (.ok [.integer 2, .text "note", .null])⟩,
   ⟨"posts", .update 0 1 3 (.ok [.integer 1, .text "draft", .null])
     (.ok [.integer 3, .text "post", .null])⟩,
   ⟨"posts", .delete 2 (.ok [.integer 2, .text "note", .null])⟩,
   ⟨"posts", .update 1 3 3 (.ok [.integer 3, .text "post", .null])
     (.ok [.integer 3, .text "post", .text "today"])⟩]

def postsActor : AuditActor := { kind := "service", id := none, hint := none }

theorem flushCaptured_replays_posts :
    ∃ C₁ : Contents, run happen (fun _ _ => none) postsEvents = some C₁ ∧
      C₁ "posts" 3 = some [.integer 3, .text "post", .text "today"] ∧
    ∃ es : List (Entry String Int64 Row),
      (captureAll ["posts"] ⟨10, 1000⟩ postsEvents).changes = es.map bufferOf ∧
      flushCaptured postsReads (captureAll ["posts"] ⟨10, 1000⟩ postsEvents) postsActor
        = .ok (es.map (fun e => historyRow postsActor (e.map (record postsReads)))) ∧
      ∃ D, run apply (Tables.map (record postsReads) (fun _ _ => none))
          (es.map (Entry.map (record postsReads))) = some D ∧
        ∀ t, captured ["posts"] t = true → D t = C₁.map (record postsReads) t := by
  refine ⟨(run happen (fun _ _ => none) postsEvents).get (by decide), (Option.some_get _).symm,
    by decide, ?_⟩
  refine flushCaptured_replays postsActor (Option.some_get _).symm ?_ ?_
  · rintro ⟨message, h⟩
    have hnone : (captureAll ["posts"] ⟨10, 1000⟩ postsEvents).error = none := by decide
    rw [hnone] at h
    cases h
  · have hfits : ∀ ev ∈ postsEvents, ∀ e ∈ ev.entry, ∀ row ∈ e.change.images, row.length = 3 := by
      decide
    exact fun ev hev e he _ row hrow => ⟨_, rfl, hfits ev hev e he row hrow⟩

end Flush

end Drust.RecordHistory
