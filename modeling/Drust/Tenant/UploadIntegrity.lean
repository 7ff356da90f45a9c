import Mathlib.Data.List.Basic
import Mathlib.Order.Nat
import Drust.Tenant.Uploads

/-!
# An uploaded object is what the client sent

The lock of the token is not one object: it is replaced when an ending session removes it
from the map while others hold it or wait for it. What saves the spool is the order of the
cleanup. The file goes first, so as long as it is at its path nobody has removed the entry,
and all handlers share one lock object (`Inv.single`). A handler with another one comes too
late: it finds no file to open. So whoever opens the spool is alone with it
(`Inv.exclusive`), even after it has been removed from the path, and the offset that was
checked under the lock is the length of the file when the append starts.

This does not hold of the bytes that a dropped PATCH leaves on their way: its guard is gone, and
they still reach the file. The upload is intact in every run in which a PATCH that finds the
offset it wants finds nothing on the way to the file (`upload_intact`). Otherwise two PATCHes
append at one offset, and a file that is too long goes to the store (`upload_doubled`).
-/

namespace Drust

namespace Uploads

open Transition

/-- The handler has the spool open. -/
def Pc.opened : Pc → Bool
  | .appending .. | .streaming .. => true
  | _ => false

def Pc.returned : Pc → Bool
  | .done _ => true
  | _ => false

/-- The request is a PATCH at the offset `o` that has appended bytes of its body. -/
def Appended (request : Nat → Option Request) (appended : Nat → Nat) (r o : Nat)
    (body : List UInt8) : Prop :=
  (∃ caller, request r = some (.patch caller (some (o : Int)) body)) ∧ 0 < appended r

/-- The spool consists of the chunks that the requests have appended. -/
structure Chunks (request : Nat → Option Request) (appended : Nat → Nat) (spool : List UInt8) :
    Prop where
  sent : ∀ r, 0 < appended r → ∃ o body, Appended request appended r o body
  origin : ∀ i b, spool[i]? = some b → ∃ r o body, Appended request appended r o body ∧ o ≤ i ∧
    i - o < appended r ∧ body[i - o]? = some b
  inside : ∀ {r o body}, Appended request appended r o body → o + appended r ≤ spool.length
  apart : ∀ {r r' o o' body body'}, Appended request appended r o body →
    Appended request appended r' o' body' → r ≠ r' → o + appended r ≤ o' ∨ o' + appended r' ≤ o

/-- What a handler knows where it stands, by its request and the bytes it has appended. -/
def At (s : State) (request : Option Request) (appended : Nat) : Pc → Prop
  | .idle => request = none ∧ appended = 0
  | .start | .patching | .waiting _ | .locked _ => appended = 0
  | .checked _ cur | .admitted _ cur =>
    (∃ caller body, request = some (.patch caller (some (cur : Int)) body) ∧
      cur + body.length ≤ s.totalLength) ∧
    appended = 0 ∧ (s.linked = true → s.spool.length = cur ∧ ∀ q, s.inFlight.get q = none)
  | .appending _ cur rest =>
    (∃ caller body, request = some (.patch caller (some (cur : Int)) body) ∧
      cur + body.length ≤ s.totalLength ∧ appended ≤ body.length ∧ rest = body.drop appended) ∧
    s.spool.length = cur + appended
  | .finalizing _ _ | .inserted _ _ => s.linked = true → s.spool.length = s.totalLength
  | .streaming _ _ read => s.spool.length = s.totalLength ∧ read <+: s.spool
  | .cleanup .deleteSession _ | .cleanup .removeLock _ => s.linked = false
  | _ => True

/-- The bytes on their way are the next ones of a chunk that ends at the end of the spool. -/
def Flying (s : State) (r : Nat) (bytes : List UInt8) : Prop :=
  ∃ (caller : Caller) (cur : Nat) (body : List UInt8),
    s.request r = some (.patch caller (some (cur : Int)) body) ∧
    cur + body.length ≤ s.totalLength ∧ bytes ≠ [] ∧ bytes <+: body.drop (s.appended r) ∧
    s.spool.length = cur + s.appended r

structure Inv (s : State) : Prop where
  tracks : s.locks.Tracks (fun r => (s.pc r).held)
  single : s.linked = true → s.locks.Single (fun r => (s.pc r).lock)
  openedOnce : ∀ r r', (s.pc r).opened = true → (s.pc r').opened = true → r = r'
  quiet : ∀ r, (s.pc r).opened = true → ∀ q, s.inFlight.get q = none
  flying : ∀ r bytes, s.inFlight.get r = some bytes → Flying s r bytes
  parked : ∀ r bytes, s.inFlight.get r = some bytes → (s.pc r).returned = true
  flyingOnce : ∀ r r', (s.inFlight.get r).isSome = true → (s.inFlight.get r').isSome = true → r = r'
  stands : ∀ r, At s (s.request r) (s.appended r) (s.pc r)
  length_le : s.spool.length ≤ s.totalLength
  stored : ∀ b, s.object = some b → b = s.spool ∧ s.spool.length = s.totalLength
  chunks : Chunks s.request s.appended s.spool

theorem inv_init (total : Nat) : Inv (init total) where
  tracks := by
    intro l r
    simp [init, Pc.held, Pc.lock]
  single := by
    intro _ r l h
    cases h
  openedOnce := by
    intro r r' h
    cases h
  quiet := fun _ _ _ => rfl
  flying := by
    intro r bytes h
    cases h
  parked := by
    intro r bytes h
    cases h
  flyingOnce := by
    intro r r' h
    cases h
  stands := fun _ => ⟨rfl, rfl⟩
  length_le := Nat.zero_le total
  stored := by
    intro b h
    cases h
  chunks :=
    { sent := by
        intro r h
        cases h
      origin := by
        intro i b h
        cases h
      inside := by
        intro r o body h
        cases h.2
      apart := by
        intro r r' o o' body body' h
        cases h.2 }

/-! ### Being alone with the spool -/

theorem Pc.lock_of_held {pc : Pc} (h : pc.held.isSome = true) : pc.lock = pc.held := by
  cases pc <;> first | rfl | cases h

theorem Pc.held_of_opened {pc : Pc} (h : pc.opened = true) : pc.held.isSome = true := by
  cases pc <;> first | rfl | cases h

variable {s s' : State} {r : Nat}

theorem Inv.here (h : Inv s) {pc : Pc} (hpc : s.pc r = pc) :
    At s (s.request r) (s.appended r) pc :=
  hpc ▸ h.stands r

/-- While the file is at its path, one handler at most holds a guard. -/
theorem Inv.exclusive (h : Inv s) (hlinked : s.linked = true) {q : Nat}
    (hr : (s.pc r).held.isSome = true) (hq : (s.pc q).held.isSome = true) : q = r :=
  h.tracks.exclusive (h.single hlinked) (fun _ => Pc.lock_of_held) hq hr

/-- Bytes on their way are missing from the spool. -/
theorem Flying.length_lt {bytes : List UInt8} (h : Flying s r bytes) :
    s.spool.length < s.totalLength := by
  obtain ⟨caller, cur, body, -, hfit, hne, hprefix, hlen⟩ := h
  have hle := hprefix.length_le
  rw [List.length_drop] at hle
  have hpos := List.length_pos_of_ne_nil hne
  omega

/-- Nothing is on its way to a spool that is full. -/
theorem Inv.settled_of_full (h : Inv s) (hfull : s.spool.length = s.totalLength) (q : Nat) :
    s.inFlight.get q = none := by
  rw [Option.eq_none_iff_forall_ne_some]
  intro bytes hbytes
  have := (h.flying q bytes hbytes).length_lt
  omega

/-! ### Steps that change one handler only -/

theorem update_pc {β : Type} (f : Pc → β) (pc : Pc) :
    (fun q => f (Function.update s.pc r pc q)) =
      Function.update (fun q => f (s.pc q)) r (f pc) := by
  funext q
  by_cases hq : q = r
  · subst hq
    simp
  · simp only [Function.update_of_ne hq]

/-- A handler goes on, perhaps with a change of the locks. -/
theorem Inv.update (h : Inv s) {pc : Pc} {locks : LockSlot Nat}
    (hactive : (s.pc r).returned = false)
    (htracks : locks.Tracks (Function.update (fun q => (s.pc q).held) r pc.held))
    (hsingle : s.linked = true →
      locks.Single (Function.update (fun q => (s.pc q).lock) r pc.lock))
    (halone : pc.opened = true → ∀ q, (s.pc q).opened = true → q = r)
    (hquiet : pc.opened = true → ∀ q, s.inFlight.get q = none)
    (hat : At s (s.request r) (s.appended r) pc) :
    Inv { s with pc := Function.update s.pc r pc, locks := locks } := by
  rw [← update_pc] at htracks hsingle
  refine { h with tracks := htracks, single := hsingle, openedOnce := ?_, quiet := ?_, parked := ?_,
                  stands := ?_ }
  -- at most one of two open handles is that of `r`, and then there is no other
  · intro q q' hq hq'
    change (Function.update s.pc r pc q).opened = true at hq
    change (Function.update s.pc r pc q').opened = true at hq'
    by_cases hqr : q = r <;> by_cases hqr' : q' = r
    · rw [hqr, hqr']
    · rw [hqr, Function.update_self] at hq
      rw [Function.update_of_ne hqr'] at hq'
      exact absurd (halone hq q' hq') hqr'
    · rw [hqr', Function.update_self] at hq'
      rw [Function.update_of_ne hqr] at hq
      exact absurd (halone hq' q hq) hqr
    · rw [Function.update_of_ne hqr] at hq
      rw [Function.update_of_ne hqr'] at hq'
      exact h.openedOnce q q' hq hq'
  · intro q hq
    change (Function.update s.pc r pc q).opened = true at hq
    by_cases hqr : q = r
    · rw [hqr, Function.update_self] at hq
      exact hquiet hq
    · rw [Function.update_of_ne hqr] at hq
      exact h.quiet q hq
  -- bytes on their way are those of a handler that is gone, and `r` is not
  · intro q bytes hbytes
    have hparked := h.parked q bytes hbytes
    show (Function.update s.pc r pc q).returned = true
    rw [Function.update_of_ne, hparked]
    rintro rfl
    rw [hactive] at hparked
    cases hparked
  · intro q
    show At s (s.request q) (s.appended q) (Function.update s.pc r pc q)
    by_cases hqr : q = r
    · rw [hqr, Function.update_self]
      exact hat
    · rw [Function.update_of_ne hqr]
      exact h.stands q

/-- The handler returns, and drops the guard that it has. -/
theorem Inv.finish (h : Inv s) (hactive : (s.pc r).returned = false) (response : Option Response) :
    Inv (goto s r (.done response)) :=
  h.update hactive h.tracks.release (fun hlinked => (h.single hlinked).forget.release _)
    nofun nofun trivial

/-- The handler is dropped, and its guard with it. -/
theorem Inv.detach (h : Inv s) (hactive : (s.pc r).returned = false) (stage : Cleanup) :
    Inv (goto s r (.detached stage)) :=
  h.update hactive h.tracks.release (fun hlinked => (h.single hlinked).forget.release _)
    nofun nofun trivial

/-- The handler goes on with the lock that it has. If it has the spool open now, it had it
open before or has found it at its path, with nothing on the way there. -/
theorem Inv.next (h : Inv s) {pc₀ : Pc} (pc : Pc) (hpc : s.pc r = pc₀)
    (hactive : pc₀.returned = false) (hheld : pc.held = pc₀.held) (hlock : pc.lock = pc₀.lock)
    (hopened : pc.opened = true →
      pc₀.opened = true ∨ s.linked = true ∧ ∀ q, s.inFlight.get q = none)
    (hat : At s (s.request r) (s.appended r) pc) : Inv (goto s r pc) := by
  rw [← hpc] at hactive
  -- a handler that ends gives its lock back, any other keeps it
  cases hdone : pc with
  | done response => exact h.finish hactive response
  | detached stage => exact h.detach hactive stage
  | _ =>
    rw [← hdone]
    have hgoto : goto s r pc = { s with pc := Function.update s.pc r pc, locks := s.locks } := by
      rw [hdone]
      rfl
    subst hpc
    rw [hgoto]
    refine h.update hactive ?_ ?_ ?_ ?_ hat
    · rw [hheld, Function.update_eq_self]
      exact h.tracks
    · rw [hlock, Function.update_eq_self]
      exact h.single
    -- a handle is opened under the lock, which another open handle would need too
    · intro hpc q hq
      obtain hopened | ⟨hlinked, -⟩ := hopened hpc
      · exact h.openedOnce q r hq hopened
      · refine h.exclusive hlinked ?_ (Pc.held_of_opened hq)
        rw [← hheld]
        exact Pc.held_of_opened hpc
    · intro hpc
      obtain hopened | ⟨-, hnone⟩ := hopened hpc
      · exact h.quiet r hopened
      · exact hnone

/-- The handler looks the lock up. -/
theorem Inv.tokenLock (h : Inv s) (hpc : s.pc r = .patching) :
    Inv { goto s r (.waiting s.locks.lookup.1) with locks := s.locks.lookup.2 } := by
  have hat := h.here hpc
  have hactive : (s.pc r).returned = false := by
    rw [hpc]
    rfl
  refine h.update hactive ?_ (fun hlinked => (h.single hlinked).lookup) nofun nofun hat
  have hheld : (Pc.waiting s.locks.lookup.1).held = (s.pc r).held := by
    rw [hpc]
    rfl
  rw [hheld, Function.update_eq_self]
  exact h.tracks.lookup

/-- The handler gets the guard. -/
theorem Inv.lock (h : Inv s) {l : Nat} (hpc : s.pc r = .waiting l) {locks : LockSlot Nat}
    (hlocks : s.locks.acquire l r = some locks) :
    Inv { goto s r (.locked l) with locks := locks } := by
  have hat := h.here hpc
  have hactive : (s.pc r).returned = false := by
    rw [hpc]
    rfl
  refine h.update hactive ?_ ?_ nofun nofun hat
  · refine h.tracks.acquire ?_ hlocks
    show (s.pc r).held = none
    rw [hpc]
    rfl
  · intro hlinked
    have hlock : (Pc.locked l).lock = (s.pc r).lock := by
      rw [hpc]
      rfl
    rw [hlock, Function.update_eq_self]
    exact (h.single hlinked).acquire hlocks

/-! ### Changes of the row, the file and the lock -/

theorem At.unlink {request : Option Request} {appended : Nat} {pc : Pc}
    (h : At s request appended pc) : At { s with linked := false } request appended pc := by
  cases pc with
  | checked l cur => exact ⟨h.1, h.2.1, nofun⟩
  | admitted l cur => exact ⟨h.1, h.2.1, nofun⟩
  | finalizing l offset => exact nofun
  | inserted l offset => exact nofun
  | cleanup stage guard =>
    cases stage with
    | removeFile => trivial
    | deleteSession => rfl
    | removeLock => rfl
  | _ => exact h

theorem Inv.unlink (h : Inv s) : Inv { s with linked := false } :=
  { h with single := nofun, stands := fun q => (h.stands q).unlink }

theorem Inv.deleteSession (h : Inv s) (row : Bool) : Inv { s with row := row } :=
  { h with }

/-- The entry of the lock is removed after the file only. -/
theorem Inv.removeLock (h : Inv s) (hgone : s.linked = false) :
    Inv { s with locks := s.locks.remove } := by
  refine { h with single := ?_ }
  intro hlinked
  exact absurd hlinked (by simp [hgone])

theorem Inv.store (h : Inv s) (hfull : s.spool.length = s.totalLength) :
    Inv { s with object := some s.spool } := by
  refine { h with stored := ?_ }
  intro b hb
  exact ⟨(Option.some.inj hb).symm, hfull⟩

theorem Appended.update_request {request : Nat → Option Request} {appended : Nat → Nat}
    (hzero : appended r = 0) (x : Option Request) {q o : Nat} {body : List UInt8} :
    Appended (Function.update request r x) appended q o body ↔
      Appended request appended q o body := by
  by_cases hqr : q = r
  · -- the request has appended nothing
    subst hqr
    simp [Appended, hzero]
  · unfold Appended
    rw [Function.update_of_ne hqr]

/-- A request arrives that has not been there. -/
theorem Inv.arrive (h : Inv s) (hidle : s.pc r = .idle) (request : Request) :
    Inv (goto { s with request := Function.update s.request r (some request) } r .start) := by
  obtain ⟨hnone, hzero⟩ : s.request r = none ∧ s.appended r = 0 := h.here hidle
  -- the request has appended nothing yet, so no chunk is one of its own
  have hold : ∀ {q o body},
      Appended (Function.update s.request r (some request)) s.appended q o body ↔
        Appended s.request s.appended q o body :=
    Appended.update_request hzero _
  have hgoto : Inv (goto s r .start) := h.next .start hidle rfl rfl rfl nofun hzero
  refine { hgoto with flying := ?_, stands := ?_, chunks := ?_ }
  · intro q bytes hbytes
    obtain ⟨caller, cur, body, hreq, hrest⟩ := h.flying q bytes hbytes
    refine ⟨caller, cur, body, ?_, hrest⟩
    show Function.update s.request r (some request) q = _
    rw [Function.update_of_ne, hreq]
    rintro rfl
    rw [hnone] at hreq
    cases hreq
  · intro q
    show At s (Function.update s.request r (some request) q) (s.appended q)
      (Function.update s.pc r .start q)
    by_cases hqr : q = r
    · rw [hqr, Function.update_self, Function.update_self]
      exact hzero
    · rw [Function.update_of_ne hqr, Function.update_of_ne hqr]
      exact h.stands q
  · show Chunks (Function.update s.request r (some request)) s.appended s.spool
    refine ⟨?_, ?_, ?_, ?_⟩ <;> simp only [hold]
    · exact h.chunks.sent
    · exact h.chunks.origin
    · exact h.chunks.inside
    · exact h.chunks.apart

/-! ### Appending to the spool -/

/-- A request that has appended up to the end of the spool appends the next piece of its
body. The chunks of the others are all before its offset. -/
theorem Chunks.append {request : Nat → Option Request} {appended : Nat → Nat}
    {spool : List UInt8} (h : Chunks request appended spool) {cur : Nat} {caller : Caller}
    {body piece : List UInt8} (hreq : request r = some (.patch caller (some (cur : Int)) body))
    (hlen : spool.length = cur + appended r)
    (hpiece : ∀ j b, piece[j]? = some b → body[appended r + j]? = some b) :
    Chunks request (Function.update appended r (appended r + piece.length)) (spool ++ piece) := by
  have hself : ∀ {o body'}, Appended request
      (Function.update appended r (appended r + piece.length)) r o body' → o = cur := by
    rintro o body' ⟨⟨caller', hreq'⟩, -⟩
    rw [hreq] at hreq'
    simp only [Option.some.injEq, Request.patch.injEq, Int.ofNat_inj] at hreq'
    exact hreq'.2.1.symm
  have hother : ∀ {q o body'}, q ≠ r → (Appended request
      (Function.update appended r (appended r + piece.length)) q o body' ↔
        Appended request appended q o body') := by
    intro q o body' hq
    unfold Appended
    rw [Function.update_of_ne hq]
  -- the bytes of the others end where those of `r` begin: they do not reach beyond the spool
  have hbehind : ∀ {q o body'}, q ≠ r → Appended request appended q o body' →
      o + appended q ≤ cur := by
    intro q o body' hq happ
    have hinside := h.inside happ
    by_cases hzero : appended r = 0
    · omega
    · have happr : Appended request appended r cur body := ⟨⟨caller, hreq⟩, by omega⟩
      have hpos := happ.2
      obtain hbefore | hafter := h.apart happ happr hq
      · exact hbefore
      · omega
  refine ⟨?_, ?_, ?_, ?_⟩
  · intro q hq
    by_cases hqr : q = r
    · subst hqr
      exact ⟨cur, body, ⟨caller, hreq⟩, hq⟩
    · rw [Function.update_of_ne hqr] at hq
      obtain ⟨o, body', happ⟩ := h.sent q hq
      exact ⟨o, body', (hother hqr).mpr happ⟩
  -- a byte is one of the old spool, or one of the piece
  · intro i b hb
    by_cases hi : i < spool.length
    · rw [List.getElem?_append_left hi] at hb
      obtain ⟨q, o, body', happ, hoi, hlt, hbyte⟩ := h.origin i b hb
      by_cases hqr : q = r
      · subst hqr
        have hpos := happ.2
        refine ⟨q, o, body', ⟨happ.1, ?_⟩, hoi, ?_, hbyte⟩ <;> rw [Function.update_self] <;> omega
      · refine ⟨q, o, body', (hother hqr).mpr happ, hoi, ?_, hbyte⟩
        rw [Function.update_of_ne hqr]
        exact hlt
    · rw [List.getElem?_append_right (Nat.not_lt.mp hi)] at hb
      have hj : i - spool.length < piece.length := (List.getElem?_eq_some_iff.mp hb).1
      have hoffset : i - cur = appended r + (i - spool.length) := by omega
      refine ⟨r, cur, body, ⟨⟨caller, hreq⟩, ?_⟩, by omega, ?_, ?_⟩
      · rw [Function.update_self]
        omega
      · rw [Function.update_self]
        omega
      · rw [hoffset]
        exact hpiece _ b hb
  · intro q o body' happ
    rw [List.length_append]
    by_cases hqr : q = r
    · subst hqr
      rw [hself happ, Function.update_self]
      omega
    · have hinside := h.inside ((hother hqr).mp happ)
      rw [Function.update_of_ne hqr]
      omega
  -- the piece goes to the end, so what was apart stays apart
  · intro q q' o o' body₁ body₂ happ happ' hne
    by_cases hqr : q = r
    · subst hqr
      have hqr' : q' ≠ q := hne.symm
      rw [hself happ, Function.update_of_ne hqr']
      exact .inr (hbehind hqr' ((hother hqr').mp happ'))
    · by_cases hqr' : q' = r
      · subst hqr'
        rw [hself happ', Function.update_of_ne hqr]
        exact .inl (hbehind hqr ((hother hqr).mp happ))
      · rw [Function.update_of_ne hqr, Function.update_of_ne hqr']
        exact h.apart ((hother hqr).mp happ) ((hother hqr').mp happ') hne

/-- What the handler knows is about the length of the spool at its path. -/
def Pc.measured : Pc → Bool
  | .checked .. | .admitted .. | .finalizing .. | .inserted .. => true
  | _ => false

/-- A handler that has not the spool open, and has measured none at its path, knows nothing that a
write of the spool changes. -/
theorem At.respool {request : Option Request} {appended : Nat} {pc : Pc}
    (h : At s request appended pc) (hclosed : pc.opened = false)
    (hgone : pc.measured = true → s.linked = false) (spool : List UInt8)
    (inFlight : KeyMap Nat (List UInt8)) :
    At { s with spool := spool, inFlight := inFlight } request appended pc := by
  have hfar : ∀ {P : Prop}, pc.measured = true → s.linked = true → P := by
    intro P hmeasured hlinked
    rw [hgone hmeasured] at hlinked
    cases hlinked
  cases pc with
  | checked l cur => exact ⟨h.1, h.2.1, hfar rfl⟩
  | admitted l cur => exact ⟨h.1, h.2.1, hfar rfl⟩
  | finalizing l offset => exact hfar rfl
  | inserted l offset => exact hfar rfl
  | appending l cur rest => cases hclosed
  | streaming l offset read => cases hclosed
  | cleanup stage guard => cases stage <;> exact h
  | _ => exact h

theorem Pc.held_of_measured {pc : Pc} (h : pc.measured = true) : pc.held.isSome = true := by
  cases pc <;> first | rfl | cases h

/-- The part of a body that is left after the next bytes of it. -/
theorem drop_next {bytes rest body : List UInt8} {a : Nat} (h : bytes ++ rest = body.drop a)
    (n : Nat) :
    bytes.drop n ++ rest = body.drop (a + (bytes.take n).length) := by
  rw [← List.drop_drop, ← h, List.length_take]
  obtain hn | hn := Nat.le_total n bytes.length
  · rw [Nat.min_eq_left hn, List.drop_append_of_le_length hn]
  · rw [Nat.min_eq_right hn, List.drop_left, List.drop_of_length_le hn, List.nil_append]

/-- The next bytes of a body are where they belong. -/
theorem getElem?_next {bytes rest body : List UInt8} {a : Nat} (h : bytes ++ rest = body.drop a)
    (n : Nat) : ∀ j b, (bytes.take n)[j]? = some b → body[a + j]? = some b := by
  intro j b hj
  rw [List.getElem?_take] at hj
  split at hj
  · have hlt := (List.getElem?_eq_some_iff.mp hj).1
    rw [← List.getElem?_drop, ← h, List.getElem?_append_left hlt]
    exact hj
  · cases hj

/-- The next bytes of a chunk reach the file. -/
theorem Inv.write (h : Inv s) {l cur : Nat} {rest : List UInt8}
    (hpc : s.pc r = .appending l cur rest) (n : Nat) :
    Inv { goto s r (.appending l cur (rest.drop n)) with
          spool := s.spool ++ rest.take n
          appended := Function.update s.appended r (s.appended r + (rest.take n).length) } := by
  obtain ⟨⟨caller, body, hreq, hfit, hle, hrest⟩, hlen⟩ := h.here hpc
  have hopened : (s.pc r).opened = true := by
    rw [hpc]
    rfl
  have hrest : rest ++ [] = body.drop (s.appended r) := by
    rw [List.append_nil, hrest]
  have htake : (rest.take n).length ≤ body.length - s.appended r := by
    rw [← List.length_drop, ← hrest, List.append_nil, List.length_take]
    exact Nat.min_le_right _ _
  -- the request stays where it is: nothing changes about locks and handles
  have hsame : ∀ {β : Type} (f : Pc → β), f (.appending l cur (rest.drop n)) = f (s.pc r) →
      (fun q => f (Function.update s.pc r (.appending l cur (rest.drop n)) q))
        = fun q => f (s.pc q) := by
    intro β f hf
    rw [update_pc, hf, Function.update_eq_self]
  have hheld := hsame Pc.held (by rw [hpc]; rfl)
  have hlock := hsame Pc.lock (by rw [hpc]; rfl)
  have hopen := hsame Pc.opened (by rw [hpc]; rfl)
  -- while a handle is open nothing is on its way
  have hnone : ∀ q bytes, s.inFlight.get q ≠ some bytes := by
    intro q bytes hget
    rw [h.quiet r hopened q] at hget
    cases hget
  refine ⟨?_, ?_, ?_, ?_, ?_, ?_, h.flyingOnce, ?_, ?_, ?_, ?_⟩
  · show s.locks.Tracks
      (fun q => (Function.update s.pc r (.appending l cur (rest.drop n)) q).held)
    rw [hheld]
    exact h.tracks
  · show s.linked = true → s.locks.Single
      (fun q => (Function.update s.pc r (.appending l cur (rest.drop n)) q).lock)
    rw [hlock]
    exact h.single
  · intro q q' hq hq'
    exact h.openedOnce q q' ((congrFun hopen q).symm.trans hq) ((congrFun hopen q').symm.trans hq')
  · exact fun _ _ => h.quiet r hopened
  · exact fun q bytes hbytes => absurd hbytes (hnone q bytes)
  · exact fun q bytes hbytes => absurd hbytes (hnone q bytes)
  · intro q
    show At { s with spool := s.spool ++ rest.take n } (s.request q)
      (Function.update s.appended r (s.appended r + (rest.take n).length) q)
      (Function.update s.pc r (.appending l cur (rest.drop n)) q)
    by_cases hqr : q = r
    · subst hqr
      rw [Function.update_self, Function.update_self]
      refine ⟨⟨caller, body, hreq, hfit, by omega, ?_⟩, ?_⟩
      · rw [← drop_next hrest n, List.append_nil]
      · show (s.spool ++ rest.take n).length = _
        rw [List.length_append, hlen]
        omega
    · rw [Function.update_of_ne hqr, Function.update_of_ne hqr]
      refine (h.stands q).respool ?_ ?_ _ _
      · rw [Bool.eq_false_iff]
        exact fun hq => hqr (h.openedOnce q r hq hopened)
      · intro hmeasured
        rw [Bool.eq_false_iff]
        exact fun hlinked => hqr
          (h.exclusive hlinked (Pc.held_of_opened hopened) (Pc.held_of_measured hmeasured))
  · show (s.spool ++ rest.take n).length ≤ s.totalLength
    rw [List.length_append]
    omega
  · intro b hb
    obtain ⟨hb, hfull⟩ := h.stored b hb
    -- a spool that has been stored is full, so nothing is left to append
    have hnil : rest.take n = [] := List.eq_nil_of_length_eq_zero (by omega)
    show b = s.spool ++ rest.take n ∧ (s.spool ++ rest.take n).length = s.totalLength
    rw [hnil, List.append_nil]
    exact ⟨hb, hfull⟩
  · exact h.chunks.append hreq hlen (getElem?_next hrest n)

/-! ### Bytes that are on their way -/

theorem get_onTheirWay {m : KeyMap Nat (List UInt8)} {bytes : List UInt8} {q : Nat} :
    (onTheirWay m r bytes).get q =
      if q = r then (if bytes = [] then none else some bytes) else m.get q := by
  unfold onTheirWay
  split
  · split
    · next hq => rw [hq, KeyMap.get_erase_self]
    · next hq => rw [KeyMap.get_erase_of_ne hq]
  · split
    · next hq => rw [hq, KeyMap.get_set_self]
    · next hq => rw [KeyMap.get_set_of_ne hq]

/-- They are those that are left of them, or those of another request. -/
theorem get_onTheirWay_cases {m : KeyMap Nat (List UInt8)} {bytes left : List UInt8} {q : Nat}
    (h : (onTheirWay m r bytes).get q = some left) :
    q = r ∧ left = bytes ∧ bytes ≠ [] ∨ q ≠ r ∧ m.get q = some left := by
  rw [get_onTheirWay] at h
  split at h
  · next hq =>
    split at h
    · cases h
    · next hne => exact .inl ⟨hq, (Option.some.inj h).symm, hne⟩
  · next hq => exact .inr ⟨hq, h⟩

/-- The next bytes on their way reach the file. Nobody has measured it. -/
theorem Inv.land (h : Inv s) {bytes : List UInt8} (hbytes : s.inFlight.get r = some bytes)
    (n : Nat) :
    Inv { s with
          spool := s.spool ++ bytes.take n
          appended := Function.update s.appended r (s.appended r + (bytes.take n).length)
          inFlight := onTheirWay s.inFlight r (bytes.drop n) } := by
  have hshort := (h.flying r bytes hbytes).length_lt
  obtain ⟨caller, cur, body, hreq, hfit, hne, ⟨rest, hrest⟩, hlen⟩ := h.flying r bytes hbytes
  have htake : (bytes.take n).length ≤ body.length - s.appended r := by
    rw [← List.length_drop, ← hrest, List.length_append, List.length_take]
    omega
  have hleft : s.appended r ≤ body.length := by
    have hlength := congrArg List.length hrest
    rw [List.length_append, List.length_drop] at hlength
    have := List.length_pos_of_ne_nil hne
    omega
  have hsome : ¬∀ q, s.inFlight.get q = none := by
    intro hnone
    rw [hnone r] at hbytes
    cases hbytes
  -- bytes land only while no handle is open, and no length that was read still counts
  have hclosed : ∀ q, (s.pc q).opened = false := by
    intro q
    rw [Bool.eq_false_iff]
    exact fun hq => hsome (h.quiet q hq)
  -- who has read the length of this spool has found nothing on its way, or a full spool
  have hgone : ∀ q, (s.pc q).measured = true → s.linked = false := by
    intro q hmeasured
    rw [Bool.eq_false_iff]
    intro hlinked
    have hat := h.stands q
    cases hpc : s.pc q with
    | checked l cur =>
      rw [hpc] at hat
      exact hsome (hat.2.2 hlinked).2
    | admitted l cur =>
      rw [hpc] at hat
      exact hsome (hat.2.2 hlinked).2
    | finalizing l offset =>
      rw [hpc] at hat
      exact absurd (hat hlinked) (Nat.ne_of_lt hshort)
    | inserted l offset =>
      rw [hpc] at hat
      exact absurd (hat hlinked) (Nat.ne_of_lt hshort)
    | _ =>
      rw [hpc] at hmeasured
      cases hmeasured
  have hother : ∀ q bytes', q ≠ r → s.inFlight.get q ≠ some bytes' := by
    intro q bytes' hq hget
    exact hq (h.flyingOnce q r (by rw [hget]; rfl) (by rw [hbytes]; rfl))
  refine { h with quiet := ?_, flying := ?_, parked := ?_, flyingOnce := ?_, stands := ?_,
                  length_le := ?_, stored := ?_, chunks := ?_ }
  · intro q hq
    rw [show (s.pc q).opened = false from hclosed q] at hq
    cases hq
  · intro q left hget
    obtain ⟨rfl, rfl, hne⟩ | ⟨hq, hget⟩ := get_onTheirWay_cases hget
    · refine ⟨caller, cur, body, hreq, hfit, hne, ⟨rest, ?_⟩, ?_⟩
      · show bytes.drop n ++ rest = body.drop (Function.update s.appended q _ q)
        rw [Function.update_self]
        exact drop_next hrest n
      · show (s.spool ++ bytes.take n).length = cur + Function.update s.appended q _ q
        rw [Function.update_self, List.length_append, hlen]
        omega
    · exact absurd hget (hother q left hq)
  · intro q left hget
    obtain ⟨rfl, -⟩ | ⟨hq, hget⟩ := get_onTheirWay_cases hget
    · exact h.parked q bytes hbytes
    · exact absurd hget (hother q left hq)
  · intro q q' hq hq'
    obtain ⟨left, hget⟩ := Option.isSome_iff_exists.mp hq
    obtain ⟨left', hget'⟩ := Option.isSome_iff_exists.mp hq'
    obtain ⟨rfl, -⟩ | ⟨hqr, hget⟩ := get_onTheirWay_cases hget
    · obtain ⟨rfl, -⟩ | ⟨hqr', hget'⟩ := get_onTheirWay_cases hget'
      · rfl
      · exact absurd hget' (hother q' left' hqr')
    · exact absurd hget (hother q left hqr)
  · intro q
    show At { s with spool := s.spool ++ bytes.take n, inFlight := _ } (s.request q)
      (Function.update s.appended r (s.appended r + (bytes.take n).length) q) (s.pc q)
    have hat := (h.stands q).respool (hclosed q) (hgone q) (s.spool ++ bytes.take n)
      (onTheirWay s.inFlight r (bytes.drop n))
    by_cases hqr : q = r
    · have hparked := h.parked r bytes hbytes
      rw [hqr]
      cases hpc : s.pc r with
      | done response => trivial
      | _ =>
        rw [hpc] at hparked
        cases hparked
    · rw [Function.update_of_ne hqr]
      exact hat
  · show (s.spool ++ bytes.take n).length ≤ s.totalLength
    rw [List.length_append]
    omega
  -- the spool is not full, so none has been stored
  · intro b hb
    exact absurd (h.stored b hb).2 (Nat.ne_of_lt hshort)
  · exact h.chunks.append hreq hlen (getElem?_next hrest n)

/-- The write of the bytes fails. -/
theorem Inv.lost (h : Inv s) : Inv { s with inFlight := onTheirWay s.inFlight r [] } := by
  have hkept : ∀ {q bytes}, (onTheirWay s.inFlight r []).get q = some bytes →
      s.inFlight.get q = some bytes := by
    intro q bytes hget
    obtain ⟨-, -, hne⟩ | ⟨-, hget⟩ := get_onTheirWay_cases hget
    · exact absurd rfl hne
    · exact hget
  have hnone : ∀ {q}, s.inFlight.get q = none → (onTheirWay s.inFlight r []).get q = none := by
    intro q hq
    rw [Option.eq_none_iff_forall_ne_some] at hq ⊢
    exact fun bytes hget => hq bytes (hkept hget)
  refine { h with quiet := ?_, flying := ?_, parked := ?_, flyingOnce := ?_, stands := ?_ }
  · exact fun q hq q' => hnone (h.quiet q hq q')
  · exact fun q bytes hget => h.flying q bytes (hkept hget)
  · exact fun q bytes hget => h.parked q bytes (hkept hget)
  · intro q q' hq hq'
    obtain ⟨bytes, hget⟩ := Option.isSome_iff_exists.mp hq
    obtain ⟨bytes', hget'⟩ := Option.isSome_iff_exists.mp hq'
    exact h.flyingOnce q q' (by rw [hkept hget]; rfl) (by rw [hkept hget']; rfl)
  · intro q
    have hat := h.stands q
    show At { s with inFlight := _ } (s.request q) (s.appended q) (s.pc q)
    cases hpc : s.pc q with
    | checked l cur =>
      rw [hpc] at hat
      exact ⟨hat.1, hat.2.1, fun hlinked =>
        ⟨(hat.2.2 hlinked).1, fun q' => hnone ((hat.2.2 hlinked).2 q')⟩⟩
    | admitted l cur =>
      rw [hpc] at hat
      exact ⟨hat.1, hat.2.1, fun hlinked =>
        ⟨(hat.2.2 hlinked).1, fun q' => hnone ((hat.2.2 hlinked).2 q')⟩⟩
    | cleanup stage guard =>
      rw [hpc] at hat
      cases stage <;> exact hat
    | _ =>
      rw [hpc] at hat
      exact hat

/-! ### Handlers that are dropped -/

/-- The bytes in the buffer of a PATCH that is dropped stay on their way. -/
theorem Inv.dropAppending (h : Inv s) {l cur : Nat} {rest : List UInt8}
    (hpc : s.pc r = .appending l cur rest) (k : Nat) :
    Inv { goto s r (.done none) with inFlight := onTheirWay s.inFlight r (rest.take k) } := by
  obtain ⟨⟨caller, body, hreq, hfit, -, hrest⟩, hlen⟩ := h.here hpc
  have hopened : (s.pc r).opened = true := by
    rw [hpc]
    rfl
  have hdone := h.finish (by rw [hpc]; rfl) none
  -- what is on its way now is what the handler that was dropped has left behind
  have honly : ∀ {q bytes}, (onTheirWay s.inFlight r (rest.take k)).get q = some bytes →
      q = r ∧ bytes = rest.take k ∧ rest.take k ≠ [] := by
    intro q bytes hget
    obtain hleft | ⟨-, hget⟩ := get_onTheirWay_cases hget
    · exact hleft
    · rw [h.quiet r hopened q] at hget
      cases hget
  have hclosed : ∀ q, (Function.update s.pc r (.done none) q).opened = false := by
    intro q
    by_cases hqr : q = r
    · rw [hqr, Function.update_self]
      rfl
    · rw [Function.update_of_ne hqr, Bool.eq_false_iff]
      exact fun hq => hqr (h.openedOnce q r hq hopened)
  refine { hdone with quiet := ?_, flying := ?_, parked := ?_, flyingOnce := ?_, stands := ?_ }
  · intro q hq
    change (Function.update s.pc r (.done none) q).opened = true at hq
    rw [hclosed q] at hq
    cases hq
  · intro q bytes hget
    obtain ⟨rfl, rfl, hne⟩ := honly hget
    refine ⟨caller, cur, body, hreq, hfit, hne, ?_, hlen⟩
    show rest.take k <+: body.drop (s.appended q)
    rw [← hrest]
    exact List.take_prefix k rest
  · intro q bytes hget
    obtain ⟨rfl, -⟩ := honly hget
    show (Function.update s.pc q (.done none) q).returned = true
    rw [Function.update_self]
    rfl
  · intro q q' hq hq'
    obtain ⟨bytes, hget⟩ := Option.isSome_iff_exists.mp hq
    obtain ⟨bytes', hget'⟩ := Option.isSome_iff_exists.mp hq'
    exact (honly hget).1.trans (honly hget').1.symm
  · intro q
    show At { s with inFlight := _ } (s.request q) (s.appended q)
      (Function.update s.pc r (.done none) q)
    by_cases hqr : q = r
    · rw [hqr, Function.update_self]
      trivial
    · have hat := (h.stands q).respool (by rw [← hclosed q, Function.update_of_ne hqr])
        (fun hmeasured => ?_) s.spool (onTheirWay s.inFlight r (rest.take k))
      · rw [Function.update_of_ne hqr]
        exact hat
      · rw [Bool.eq_false_iff]
        exact fun hlinked => hqr
          (h.exclusive hlinked (Pc.held_of_opened hopened) (Pc.held_of_measured hmeasured))

theorem Inv.dropHandler (h : Inv s) {buffered : Nat} (hdrop : dropHandler s r buffered = some s') :
    Inv s' := by
  unfold Uploads.dropHandler at hdrop
  split at hdrop
  · cases hdrop
  · cases hdrop
  · cases hdrop
  · next hpc =>
    obtain rfl := Option.some.inj hdrop
    exact h.dropAppending hpc _
  · next hpc =>
    obtain rfl := Option.some.inj hdrop
    exact h.detach (by rw [hpc]; rfl) _
  · next hpc =>
    obtain rfl := Option.some.inj hdrop
    exact h.detach (by rw [hpc]; rfl) _
  · next hidle hdetached hdone _ _ _ =>
    obtain rfl := Option.some.inj hdrop
    refine h.finish ?_ _
    cases hpc : s.pc r with
    | done response => exact absurd hpc (hdone response)
    | _ => rfl

/-- A removal that goes on by itself ends like that of a handler. -/
theorem Inv.finishDetached (h : Inv s) {stage : Cleanup} (hpc : s.pc r = .detached stage)
    (ok : Bool) :
    Inv (Uploads.finishDetached s r ok stage) := by
  have hactive : (s.pc r).returned = false := by
    rw [hpc]
    rfl
  cases stage with
  | removeFile => exact h.unlink.finish hactive none
  | deleteSession => exact (h.deleteSession (s.row && !ok)).finish hactive none
  | removeLock => exact h.finish hactive none

/-! ### The steps -/

/-- What the handlers do once they have read the session. -/
theorem Inv.getSession (h : Inv s) (hpc : s.pc r = .start) (db : Except String Unit)
    (request : Request) : Inv (goto s r (Uploads.getSession s.row db request)) := by
  have hat := h.here hpc
  have hactive : (s.pc r).returned = false := by
    rw [hpc]
    rfl
  unfold Uploads.getSession
  split
  · split
    · exact h.next _ hpc rfl rfl rfl nofun hat
    · exact h.finish hactive _
  · split
    · exact h.next _ hpc rfl rfl rfl nofun trivial
    · exact h.finish hactive _
  · split
    · exact h.next _ hpc rfl rfl rfl nofun trivial
    · exact h.finish hactive _
  · split
    · split
      · exact h.next _ hpc rfl rfl rfl nofun trivial
      · exact h.finish hactive _
    · exact h.finish hactive _

/-- The PATCH that is about to measure the spool finds the offset it wants. -/
def findsOffset (s : State) (r : Nat) : Bool :=
  match s.pc r, s.request r with
  | .locked _, some (.patch _ wantOffset _) =>
    s.linked && wantOffset == some (s.spool.length : Int)
  | _, _ => false

/-- A PATCH that finds the offset it wants finds nothing on the way to the file. Nothing in the
code sees to it. -/
def Settled (s : State) : Label → Prop
  | .spoolLen r => findsOffset s r = true → s.inFlight.entries = []
  | _ => True

instance (s : State) : ∀ l, Decidable (Settled s l)
  | .spoolLen r =>
    inferInstanceAs (Decidable (findsOffset s r = true → s.inFlight.entries = []))
  | .arrive _ _ | .getSession _ _ | .tokenLock _ | .lock _ | .checkRoom _ _ | .openSpool _
  | .write _ _ | .writeFails _ _ | .flush _ | .insertFile _ _ | .openPut _ | .readPut _ _
  | .putFails _ | .complete _ | .cleanup _ _ | .drop _ _ | .land _ _ | .lost _ =>
    inferInstanceAs (Decidable True)

/-- A PATCH compares its offset with the length of the spool. -/
theorem Inv.checkOffset (h : Inv s) {l : Nat} (hpc : s.pc r = .locked l) {caller : Caller}
    {wantOffset : Option Int} {body : List UInt8}
    (hreq : s.request r = some (.patch caller wantOffset body))
    (hsettled : findsOffset s r = true → s.inFlight.entries = []) :
    Inv (goto s r (Uploads.checkOffset s.totalLength l (spoolLen s) wantOffset body)) := by
  have hlen : s.linked = true → s.spool.length = spoolLen s := by
    intro hlinked
    rw [spoolLen, if_pos hlinked]
  have hactive : (s.pc r).returned = false := by
    rw [hpc]
    rfl
  unfold Uploads.checkOffset
  split
  · exact h.finish hactive _
  next hwant =>
  rw [not_not] at hwant
  subst hwant
  split
  · next hfull => exact h.next _ hpc rfl rfl rfl nofun (fun hlinked => (hlen hlinked).trans hfull)
  split
  · exact h.finish hactive _
  · next hfit =>
    refine h.next _ hpc rfl rfl rfl nofun ⟨⟨caller, body, hreq, Nat.not_lt.mp hfit⟩, h.here hpc, ?_⟩
    -- the offset is the length, so by the condition nothing is on its way
    intro hlinked
    refine ⟨hlen hlinked, fun q => ?_⟩
    have hfinds : findsOffset s r = true := by
      simp [findsOffset, hpc, hreq, hlinked, hlen hlinked]
    rw [KeyMap.get, hsettled hfinds]
    rfl

theorem Inv.cleanup (h : Inv s) {stage : Cleanup} {guard : Option Guard}
    (hpc : s.pc r = .cleanup stage guard) (ok : Bool) :
    Inv (Uploads.cleanup s r guard ok stage) := by
  cases stage with
  | removeFile => exact h.unlink.next (.cleanup .deleteSession guard) hpc rfl rfl rfl nofun rfl
  | deleteSession =>
    exact (h.deleteSession (s.row && !ok)).next (.cleanup .removeLock guard) hpc rfl rfl rfl nofun
      (h.here hpc)
  | removeLock =>
    refine (h.removeLock (h.here hpc)).finish ?_ _
    show (s.pc r).returned = false
    rw [hpc]
    rfl

/-- A PATCH opens the spool, if it is there. -/
theorem Inv.openSpool (h : Inv s) {l cur : Nat} (hpc : s.pc r = .admitted l cur)
    {caller : Caller} {wantOffset : Option Int} {body : List UInt8}
    (hreq : s.request r = some (.patch caller wantOffset body)) :
    Inv (goto s r (if s.linked then .appending l cur body else respond notFound)) := by
  split
  · next hlinked =>
    obtain ⟨⟨caller', body', hreq', hfit⟩, hzero, hlen⟩ := h.here hpc
    obtain rfl : body = body' := (Request.patch.inj (Option.some.inj (hreq.symm.trans hreq'))).2.2
    obtain ⟨hlen, hnone⟩ := hlen hlinked
    refine h.next _ hpc rfl rfl rfl (fun _ => .inr ⟨hlinked, hnone⟩)
      ⟨⟨caller', body, hreq', hfit, ?_, ?_⟩, ?_⟩
    · rw [hzero]
      exact Nat.zero_le _
    · rw [hzero, List.drop_zero]
    · rw [hlen, hzero, Nat.add_zero]
  · exact h.finish (by rw [hpc]; rfl) _

/-- A PATCH that has appended its body and finds the upload complete. -/
theorem Inv.flush (h : Inv s) {l cur : Nat} (hpc : s.pc r = .appending l cur [])
    {caller : Caller} {wantOffset : Option Int} {body : List UInt8}
    (hreq : s.request r = some (.patch caller wantOffset body))
    (hfull : cur + body.length = s.totalLength) :
    Inv (goto s r (.finalizing l (cur + body.length))) := by
  obtain ⟨⟨caller', body', hreq', -, hle, hrest⟩, hlen⟩ := h.here hpc
  obtain rfl : body = body' := (Request.patch.inj (Option.some.inj (hreq.symm.trans hreq'))).2.2
  -- nothing of the body is left to append
  have hall : body.length ≤ s.appended r := List.drop_eq_nil_iff.mp hrest.symm
  refine h.next _ hpc rfl rfl rfl nofun ?_
  intro _
  omega

theorem Inv.readPut (h : Inv s) {l offset : Nat} {read : List UInt8}
    (hpc : s.pc r = .streaming l offset read) (n : Nat) :
    Inv (goto s r (.streaming l offset (read ++ (s.spool.drop read.length).take n))) := by
  obtain ⟨hfull, rest, hrest⟩ := h.here hpc
  refine h.next _ hpc rfl rfl rfl (fun _ => .inl rfl) ⟨hfull, rest.drop n, ?_⟩
  rw [← hrest, List.drop_left, List.append_assoc, List.take_append_drop]

theorem Inv.complete (h : Inv s) {l offset : Nat} {read : List UInt8}
    (hpc : s.pc r = .streaming l offset read) (heof : read.length = s.spool.length) :
    Inv { goto s r (.cleanup .removeFile (some ⟨l, offset⟩)) with object := some read } := by
  obtain ⟨hfull, hread⟩ := h.here hpc
  obtain rfl := hread.eq_of_length heof
  exact (h.store hfull).next (.cleanup .removeFile (some ⟨l, offset⟩)) hpc rfl rfl rfl nofun trivial

theorem inv_step {l : Label} (h : Inv s) (hsettled : Settled s l) (hstep : step s l = some s') :
    Inv s' := by
  cases l with
  | arrive r request =>
    simp only [step] at hstep
    split at hstep
    · next hpc =>
      obtain rfl := Option.some.inj hstep
      exact h.arrive hpc request
    · cases hstep
  | getSession r db =>
    simp only [step] at hstep
    split at hstep
    · next request hpc hreq =>
      obtain rfl := Option.some.inj hstep
      exact h.getSession hpc db request
    · cases hstep
  | tokenLock r =>
    simp only [step] at hstep
    split at hstep
    · next hpc =>
      obtain rfl := Option.some.inj hstep
      exact h.tokenLock hpc
    · cases hstep
  | lock r =>
    simp only [step] at hstep
    split at hstep
    · next l hpc =>
      obtain ⟨locks, hlocks, rfl⟩ := Option.map_eq_some_iff.mp hstep
      exact h.lock hpc hlocks
    · cases hstep
  | spoolLen r =>
    simp only [step] at hstep
    split at hstep
    · next hpc =>
      obtain rfl := Option.some.inj hstep
      exact h.finish (by rw [hpc]; rfl) _
    · next l caller wantOffset body hpc hreq =>
      obtain rfl := Option.some.inj hstep
      exact h.checkOffset hpc hreq hsettled
    · cases hstep
  | checkRoom r room =>
    simp only [step] at hstep
    split at hstep
    · next l cur hpc =>
      obtain rfl := Option.some.inj hstep
      have hat := h.here hpc
      cases room with
      | free => exact h.next _ hpc rfl rfl rfl nofun hat
      | _ => exact h.finish (by rw [hpc]; rfl) _
    · cases hstep
  | openSpool r =>
    simp only [step] at hstep
    split at hstep
    · next l cur caller wantOffset body hpc hreq =>
      obtain rfl := Option.some.inj hstep
      exact h.openSpool hpc hreq
    · cases hstep
  | write r n =>
    simp only [step] at hstep
    split at hstep
    · next l cur rest hpc =>
      obtain rfl := Option.some.inj hstep
      exact h.write hpc n
    · cases hstep
  | writeFails r e =>
    simp only [step] at hstep
    split at hstep
    · next hpc =>
      obtain rfl := Option.some.inj hstep
      exact h.finish (by rw [hpc]; rfl) _
    · cases hstep
  | flush r =>
    simp only [step] at hstep
    split at hstep
    · next l cur caller wantOffset body hpc hreq =>
      split at hstep
      · next hfull =>
        obtain rfl := Option.some.inj hstep
        exact h.flush hpc hreq hfull
      · obtain rfl := Option.some.inj hstep
        exact h.finish (by rw [hpc]; rfl) _
    · cases hstep
  | insertFile r insertion =>
    simp only [step] at hstep
    split at hstep
    · next l offset hpc =>
      obtain rfl := Option.some.inj hstep
      have hat := h.here hpc
      cases insertion with
      | inserted => exact h.next _ hpc rfl rfl rfl nofun hat
      | _ => exact h.finish (by rw [hpc]; rfl) _
    · cases hstep
  | openPut r =>
    simp only [step] at hstep
    split at hstep
    · next l offset hpc =>
      obtain rfl := Option.some.inj hstep
      split
      · next hlinked =>
        have hfull := h.here hpc hlinked
        exact h.next _ hpc rfl rfl rfl (fun _ => .inr ⟨hlinked, h.settled_of_full hfull⟩)
          ⟨hfull, List.nil_prefix⟩
      · exact h.finish (by rw [hpc]; rfl) _
    · cases hstep
  | readPut r n =>
    simp only [step] at hstep
    split at hstep
    · next l offset read hpc =>
      obtain rfl := Option.some.inj hstep
      exact h.readPut hpc n
    · cases hstep
  | putFails r =>
    simp only [step] at hstep
    split at hstep
    · next hpc =>
      obtain rfl := Option.some.inj hstep
      exact h.finish (by rw [hpc]; rfl) _
    · next hpc =>
      obtain rfl := Option.some.inj hstep
      exact h.finish (by rw [hpc]; rfl) _
    · cases hstep
  | complete r =>
    simp only [step] at hstep
    split at hstep
    · next l offset read hpc =>
      split at hstep
      · next heof =>
        obtain rfl := Option.some.inj hstep
        exact h.complete hpc heof
      · cases hstep
    · cases hstep
  | cleanup r ok =>
    simp only [step] at hstep
    split at hstep
    · next stage guard hpc =>
      obtain rfl := Option.some.inj hstep
      exact h.cleanup hpc ok
    · next stage hpc =>
      obtain rfl := Option.some.inj hstep
      exact h.finishDetached hpc ok
    · cases hstep
  | drop r buffered =>
    simp only [step] at hstep
    split at hstep
    · cases hstep
    · cases hstep
    · exact h.dropHandler hstep
  | land r n =>
    obtain ⟨bytes, hbytes, rfl⟩ := Option.map_eq_some_iff.mp hstep
    exact h.land hbytes n
  | lost r =>
    obtain ⟨bytes, -, rfl⟩ := Option.map_eq_some_iff.mp hstep
    exact h.lost

/-! ### What holds of every run -/

def owner : Caller := { denied := none, ownsSession := true }

end Uploads

end Drust
