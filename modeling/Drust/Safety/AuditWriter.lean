import Drust.Lib.LossyPipe
import Drust.Lib.Transition
import Drust.Safety.AuditDb

/-!
# The audit writer accounts for every entry

The channel, the buffer and the table are a pipe that may lose items: every step of a request or of
the writer is a move of it (`pipe_step`). So at any time what is in the table or on its way there
stands in the order in which it was handed in, and what is missing was counted, or the database
did not take it. What the retention passes delete is older than a cutoff that was asked for
(`entries_accounted`).

The values for `_meta` are written in the order in which they were sent, and each of them after
the passes that were asked for before it (`meta_follows_passes`).
-/

namespace Drust

namespace AuditDb

open Transition

variable {lim : Limits} {s s' : State}

/-! ### What a step can do -/

/-- The writer is in a retention pass. -/
def Phase.inPass : Phase → Bool
  | .idle => false
  | _ => true

/-- The cutoff by which the rows are deleted. -/
def Phase.cutoff : Phase → Option String
  | .deleting cutoff _ | .absorbing cutoff _ => some cutoff
  | _ => none

inductive Effect (lim : Limits) (s : State) : State → Prop
  | accept (cmd : WriterCmd) (hroom : s.channel.length < lim.channelCapacity) :
      Effect lim s (s.accept cmd)
  | refuse (entry : AuditEntry) (hfull : ¬ s.channel.length < lim.channelCapacity) :
      Effect lim s { s with dropped := s.dropped + 1, sent := s.sent ++ [entry] }
  | recv (f : Flush) {cmd : WriterCmd} {rest : List WriterCmd} (hidle : s.phase = .idle)
      (hchannel : s.channel = cmd :: rest) :
      Effect lim s (writerRecv lim f { s with channel := rest } cmd)
  /-- The buffer is flushed outside of a pass, or between two chunks. -/
  | flush (f : Flush) (phase : Phase) (hpass : phase.inPass = s.phase.inPass)
      (hcutoff : phase.cutoff = s.phase.cutoff) :
      Effect lim s { flush f s with phase := phase }
  | delete {cutoff : String} {vacuum : Bool} {ids : List Nat}
      (hphase : s.phase = .deleting cutoff vacuum) (hids : DeletesChunk lim cutoff s.db ids) :
      Effect lim s { s.setDb (s.db.delete fun i _ => i ∈ ids) with phase := .absorbing cutoff vacuum }
  /-- The last chunk is deleted, or the rewrite starts. -/
  | turn (conn : Conn) (phase : Phase) (hpass : s.phase.inPass = true)
      (hpass' : phase.inPass = true) (hcutoff : phase.cutoff = none) :
      Effect lim s { s with conn := conn, phase := phase }
  | stash {cmd : WriterCmd} {rest : List WriterCmd} (hpass : s.phase.inPass = true)
      (hchannel : s.channel = cmd :: rest) :
      Effect lim s (stashCmd lim { s with channel := rest } cmd)
  | finish (f : Flush) (conn : Conn) (hpass : s.phase.inPass = true) :
      Effect lim s (finishPass f { s with conn := conn })

theorem setDb_eq (s : State) (db : Db) :
    ∃ conn disk, s.setDb db = { s with conn := conn, disk := disk } := by
  unfold State.setDb
  split <;> exact ⟨_, _, rfl⟩

/-- A flush empties the buffer, and otherwise is about the databases only. -/
theorem flush_eq (f : Flush) (s : State) : ∃ conn disk written failed, flush f s =
    { s with buf := [], conn := conn, disk := disk, written := written, failed := failed } := by
  unfold flush
  split
  · exact ⟨_, _, _, _, rfl⟩
  · dsimp only
    split <;> exact ⟨_, _, _, _, rfl⟩

theorem flush_phase (f : Flush) (s : State) : { flush f s with phase := s.phase } = flush f s := by
  obtain ⟨conn, disk, written, failed, heq⟩ := flush_eq f s
  rw [heq]

theorem step_effect {l : Label} (hstep : step lim s l = some s') : Effect lim s s' := by
  cases l with
  | trySend entry =>
    simp only [step] at hstep
    split at hstep
    · next hroom =>
      cases hstep
      exact .accept _ hroom
    · next hfull =>
      cases hstep
      exact .refuse entry hfull
  | send cmd =>
    simp only [step] at hstep
    split at hstep
    · next hroom =>
      cases hstep
      exact .accept cmd hroom
    · cases hstep
  | recv f =>
    simp only [step] at hstep
    split at hstep
    · next hidle hchannel =>
      cases hstep
      exact .recv f hidle hchannel
    · cases hstep
  | timeout f =>
    simp only [step] at hstep
    split at hstep
    · next hidle =>
      cases hstep
      exact flush_phase f s ▸ .flush f s.phase rfl rfl
    · cases hstep
  | deleteExpiredChunk ids =>
    simp only [step] at hstep
    split at hstep
    · next hphase =>
      split at hstep
      · next hids =>
        split at hstep
        · cases hstep
          exact .turn s.conn _ (congrArg Phase.inPass hphase) rfl rfl
        · cases hstep
          exact .delete hphase hids
      · cases hstep
    · cases hstep
  | deleteFails =>
    simp only [step] at hstep
    split at hstep
    · next hphase =>
      cases hstep
      exact .turn s.conn _ (congrArg Phase.inPass hphase) rfl rfl
    · cases hstep
  | tryRecv f =>
    simp only [step] at hstep
    split at hstep
    · next hphase =>
      split at hstep
      · cases hstep
        exact .flush f _ (congrArg Phase.inPass hphase).symm (congrArg Phase.cutoff hphase).symm
      · next hchannel =>
        cases hstep
        exact .stash (congrArg Phase.inPass hphase) hchannel
    · cases hstep
  | endPass f =>
    simp only [step] at hstep
    split at hstep
    · next hphase =>
      cases hstep
      exact .finish f s.conn (congrArg Phase.inPass hphase)
    · cases hstep
  | offload =>
    simp only [step] at hstep
    split at hstep
    · next hphase =>
      cases hstep
      exact .turn _ _ (congrArg Phase.inPass hphase) rfl rfl
    · cases hstep
  | stash =>
    simp only [step] at hstep
    split at hstep
    · next hphase hchannel =>
      cases hstep
      exact .stash (congrArg Phase.inPass hphase) hchannel
    · cases hstep
  | joined f =>
    simp only [step] at hstep
    split at hstep
    · next owned hphase =>
      cases hstep
      exact .finish f owned (congrArg Phase.inPass hphase)
    · cases hstep
  | joinFails reopened f =>
    simp only [step] at hstep
    split at hstep
    · next hphase =>
      split at hstep
      · cases hstep
        exact .finish f .disk (congrArg Phase.inPass hphase)
      · cases hstep
        exact .finish f s.conn (congrArg Phase.inPass hphase)
    · cases hstep

/-! ### The entries -/

/-- The entries among some commands. -/
def inserts (cmds : List WriterCmd) : List AuditEntry :=
  cmds.filterMap fun
    | .insert entry => some entry
    | _ => none

/-- The entries on their way to the table. -/
def State.underway (s : State) : List AuditEntry :=
  s.buf ++ inserts s.channel

def State.pipe (s : State) : Pipe AuditEntry where
  handed := s.sent
  out := s.written
  inside := s.underway
  losses := s.dropped + s.stashDropped + s.failed

theorem inserts_append (cmds cmds' : List WriterCmd) :
    inserts (cmds ++ cmds') = inserts cmds ++ inserts cmds' :=
  List.filterMap_append

theorem sublist_without (bad : List Nat) (entries : List AuditEntry) :
    (without bad entries).Sublist entries := by
  have hsub := (List.filter_sublist (p := fun e => e.2 ∉ bad) (l := entries.zipIdx)).map Prod.fst
  rwa [List.zipIdx_map_fst] at hsub

theorem pipe_flush (f : Flush) (s : State) : Pipe.Step s.pipe (flush f s).pipe := by
  have hinside : s.pipe.inside = s.buf ++ inserts s.channel := rfl
  cases f with
  | fails =>
    have hemit := Pipe.Step.emit hinside (List.nil_sublist s.buf)
    simpa [State.pipe, State.underway, flush, Nat.add_assoc] using hemit
  | commits bad =>
    simp only [flush]
    split
    · have hemit := Pipe.Step.emit hinside (sublist_without bad s.buf)
      simpa [State.pipe, State.underway, Nat.add_assoc] using hemit
    · have hemit := Pipe.Step.emit hinside (List.nil_sublist s.buf)
      simpa [State.pipe, State.underway, Nat.add_assoc] using hemit

theorem pipe_accept (s : State) (cmd : WriterCmd) : Pipe.Step s.pipe (s.accept cmd).pipe := by
  cases cmd with
  | insert entry =>
    have henter := Pipe.Step.enter (p := s.pipe) entry
    simpa [State.pipe, State.underway, State.accept, inserts_append, inserts] using henter
  | runRetention cutoff vacuum =>
    have hsame : (s.accept (.runRetention cutoff vacuum)).pipe = s.pipe := by
      simp [State.pipe, State.underway, State.accept, inserts]
    exact hsame ▸ .refl
  | setMeta key value =>
    have hsame : (s.accept (.setMeta key value)).pipe = s.pipe := by
      simp [State.pipe, State.underway, State.accept, inserts]
    exact hsame ▸ .refl

/-- A command that is taken from the channel is parked, or lost for want of room. -/
theorem pipe_stashCmd {cmd : WriterCmd} {rest : List WriterCmd} (hchannel : s.channel = cmd :: rest) :
    Pipe.Step s.pipe (stashCmd lim { s with channel := rest } cmd).pipe := by
  cases cmd with
  | insert entry =>
    have hinside : s.pipe.inside = s.buf ++ entry :: inserts rest := by
      simp [State.pipe, State.underway, hchannel, inserts]
    simp only [stashCmd]
    split
    · have hlose := Pipe.Step.lose hinside
      have hlosses : s.dropped + s.stashDropped + s.failed + 1 =
          s.dropped + (s.stashDropped + 1) + s.failed := by omega
      simpa [State.pipe, State.underway, hlosses] using hlose
    · have hsame : State.pipe { s with channel := rest, buf := s.buf ++ [entry] } = s.pipe := by
        simp [State.pipe, State.underway, hchannel, inserts]
      rw [hsame]
      exact .refl
  | runRetention cutoff vacuum | setMeta key value =>
    have hsame : inserts s.channel = inserts rest := by rw [hchannel]; rfl
    simpa [State.pipe, State.underway, stashCmd, hsame] using Pipe.Step.refl

theorem foldl_setMeta (s : State) (kvs : List (String × String)) :
    kvs.foldl State.setMeta s =
      { s with metaWritten := s.metaWritten ++ kvs.map fun kv => ⟨kv, s.taken, s.settled⟩ } := by
  induction kvs generalizing s with
  | nil => simp
  | cons kv kvs ih =>
    rw [List.foldl_cons, ih]
    simp [State.setMeta]

theorem pipe_finishPass (f : Flush) (s : State) : Pipe.Step s.pipe (finishPass f s).pipe := by
  simp only [finishPass, foldl_setMeta]
  exact pipe_flush f { s with
    deferredMeta := [], phase := .idle, settled := s.settled + 1, metaWritten := _ }

theorem pipe_writerRecv {cmd : WriterCmd} {rest : List WriterCmd} (f : Flush)
    (hchannel : s.channel = cmd :: rest) :
    Pipe.Step s.pipe (writerRecv lim f { s with channel := rest } cmd).pipe := by
  cases cmd with
  | insert entry =>
    have hsame : s.pipe = State.pipe { s with channel := rest, buf := s.buf ++ [entry] } := by
      simp [State.pipe, State.underway, hchannel, inserts]
    rw [hsame]
    simp only [writerRecv]
    split
    · exact pipe_flush f _
    · exact .refl
  | runRetention cutoff vacuum =>
    have hsame : s.pipe = State.pipe { s with channel := rest } := by
      simp [State.pipe, State.underway, hchannel, inserts]
    rw [hsame]
    exact pipe_flush f { s with channel := rest }
  | setMeta key value =>
    have hsame : s.pipe = (writerRecv lim f { s with channel := rest } (.setMeta key value)).pipe := by
      simp [State.pipe, State.underway, writerRecv, State.setMeta, hchannel, inserts]
    rw [← hsame]
    exact .refl


/-- Every step is a move of the pipe. -/
theorem pipe_step (heffect : Effect lim s s') : Pipe.Step s.pipe s'.pipe := by
  cases heffect with
  | accept cmd _ => exact pipe_accept s cmd
  | refuse entry _ =>
    have hrefuse := Pipe.Step.refuse (p := s.pipe) entry
    have hlosses : s.dropped + s.stashDropped + s.failed + 1 =
        s.dropped + 1 + s.stashDropped + s.failed := by omega
    simpa [State.pipe, State.underway, hlosses] using hrefuse
  | recv f _ hchannel => exact pipe_writerRecv f hchannel
  | flush f phase _ _ => exact pipe_flush f s
  | @delete cutoff vacuum ids _ _ =>
    obtain ⟨conn, disk, heq⟩ := setDb_eq s (s.db.delete fun i _ => i ∈ ids)
    rw [heq]
    exact .refl
  | turn conn phase _ _ _ => exact .refl
  | stash _ hchannel => exact pipe_stashCmd hchannel
  | finish f conn _ => exact pipe_finishPass f { s with conn := conn }

theorem accounted_run {db : Db} {ls : List Label} (hrun : run (step lim) (start db) ls = some s) :
    s.pipe.Accounted := by
  have hstart : (start db).pipe.Accounted := Pipe.accounted_empty
  have hkept : ∀ {s l s'}, s.pipe.Accounted → step lim s l = some s' → s'.pipe.Accounted :=
    fun h hstep => h.step (pipe_step (step_effect hstep))
  exact run_invariant hkept hstart hrun

/-! ### The table -/

/-- The rows that the table would have without the retention passes. -/
def allRows (db : Db) (written : List AuditEntry) : List (Nat × AuditRow) :=
  (db.insertAll (written.map AuditEntry.toRow)).entries

/-- What is missing in the table is older than a cutoff. -/
structure Stored (db : Db) (s : State) : Prop where
  seq : s.disk.seq = db.seq + s.written.length
  kept : s.disk.entries.Sublist (allRows db s.written)
  purged : ∀ e ∈ allRows db s.written, e ∉ s.disk.entries → ∃ cutoff ∈ s.cutoffs, e.2.ts < cutoff
  asked : ∀ cutoff vacuum, .runRetention (some cutoff) vacuum ∈ s.channel → cutoff ∈ s.cutoffs
  passing : ∀ cutoff, s.phase.cutoff = some cutoff → cutoff ∈ s.cutoffs

variable {db : Db}

/-- A step that only takes from the channel keeps the table as it is. -/
theorem Stored.same (h : Stored db s) (hdisk : s'.disk = s.disk) (hwritten : s'.written = s.written)
    (hcutoffs : s'.cutoffs = s.cutoffs) (hchannel : s'.channel ⊆ s.channel)
    (hphase : ∀ cutoff, s'.phase.cutoff = some cutoff → cutoff ∈ s.cutoffs) : Stored db s' := by
  refine ⟨?_, ?_, ?_, ?_, ?_⟩
  · rw [hdisk, hwritten]
    exact h.seq
  · rw [hdisk, hwritten]
    exact h.kept
  · rw [hdisk, hwritten, hcutoffs]
    exact h.purged
  · rw [hcutoffs]
    exact fun cutoff vacuum hmem => h.asked cutoff vacuum (hchannel hmem)
  · rw [hcutoffs]
    exact hphase

theorem Stored.flush (h : Stored db s) (f : Flush) (phase : Phase)
    (hphase : ∀ cutoff, phase.cutoff = some cutoff → cutoff ∈ s.cutoffs) :
    Stored db { AuditDb.flush f s with phase := phase } := by
  cases f with
  | fails => exact h.same rfl rfl rfl (List.Subset.refl _) hphase
  | commits bad =>
    simp only [AuditDb.flush]
    split
    · have hrows : allRows db (s.written ++ without bad s.buf) =
          allRows db s.written ++
            SerialTable.numbered s.disk.seq ((without bad s.buf).map AuditEntry.toRow) := by
        simp only [allRows, SerialTable.insertAll, List.map_append, SerialTable.numbered_append,
          List.length_map, ← h.seq, List.append_assoc]
      refine ⟨?_, ?_, ?_, h.asked, hphase⟩
      · simp only [SerialTable.insertAll, h.seq, List.length_map, List.length_append, Nat.add_assoc]
      · dsimp only
        rw [hrows]
        exact h.kept.append_right _
      · intro r hr hgone
        dsimp only at hr
        rw [hrows] at hr
        obtain hr | hr := List.mem_append.mp hr
        · exact h.purged r hr (fun hmem => hgone (List.mem_append_left _ hmem))
        · exact absurd (List.mem_append_right _ hr) hgone
    · exact h.same rfl rfl rfl (List.Subset.refl _) hphase

theorem Stored.accept (h : Stored db s) (cmd : WriterCmd) : Stored db (s.accept cmd) := by
  cases cmd with
  | insert entry | setMeta key value =>
    refine ⟨h.seq, h.kept, h.purged, ?_, h.passing⟩
    intro cutoff vacuum hmem
    obtain hmem | hmem := List.mem_append.mp hmem
    · exact h.asked cutoff vacuum hmem
    · cases List.mem_singleton.mp hmem
  | runRetention cutoff vacuum =>
    have hsub : ∀ c ∈ s.cutoffs, c ∈ s.cutoffs ++ cutoff.toList :=
      fun c hc => List.mem_append_left _ hc
    refine ⟨h.seq, h.kept, ?_, ?_, fun c hc => hsub c (h.passing c hc)⟩
    · intro r hr hgone
      obtain ⟨c, hc, hlt⟩ := h.purged r hr hgone
      exact ⟨c, hsub c hc, hlt⟩
    · intro c v hmem
      obtain hmem | hmem := List.mem_append.mp hmem
      · exact hsub c (h.asked c v hmem)
      · cases List.mem_singleton.mp hmem
        exact List.mem_append_right _ List.mem_cons_self

/-- A chunk goes by the ids of rows that are too old. -/
theorem Stored.delete (h : Stored db s) {cutoff : String} {vacuum : Bool} {ids : List Nat}
    (hphase : s.phase = .deleting cutoff vacuum) (hids : DeletesChunk lim cutoff s.db ids) :
    Stored db { s.setDb (s.db.delete fun i _ => i ∈ ids) with phase := .absorbing cutoff vacuum } := by
  have hcutoff : cutoff ∈ s.cutoffs := h.passing cutoff (congrArg Phase.cutoff hphase)
  have hpassing : ∀ c, (Phase.absorbing cutoff vacuum).cutoff = some c → c ∈ s.cutoffs := by
    rintro c hc
    cases hc
    exact hcutoff
  unfold State.setDb
  split
  · next hconn =>
    have hdb : s.db = s.disk := by
      unfold State.db
      rw [hconn]
    rw [hdb] at hids ⊢
    refine ⟨h.seq, List.filter_sublist.trans h.kept, ?_, h.asked, hpassing⟩
    rintro ⟨i, r⟩ hr hgone
    by_cases hmem : (i, r) ∈ s.disk.entries
    · -- the row is one of the chunk, as no other row has its id
      have hid : i ∈ ids := by
        by_contra hid
        exact hgone (SerialTable.mem_delete.mpr ⟨hmem, by simpa using hid⟩)
      obtain ⟨⟨i', r'⟩, hr', rfl, hlt⟩ := hids.2.1 i hid
      obtain rfl := SerialTable.eq_of_mem hr' hmem
      exact ⟨cutoff, hcutoff, hlt⟩
    · exact h.purged _ hr hmem
  · exact h.same rfl rfl rfl (List.Subset.refl _) hpassing

theorem Stored.stash (h : Stored db s) {cmd : WriterCmd} {rest : List WriterCmd}
    (hchannel : s.channel = cmd :: rest) :
    Stored db (stashCmd lim { s with channel := rest } cmd) := by
  have hsub : rest ⊆ s.channel := hchannel ▸ List.subset_cons_self cmd rest
  cases cmd with
  | insert entry =>
    simp only [stashCmd]
    split
    · exact h.same rfl rfl rfl hsub h.passing
    · exact h.same rfl rfl rfl hsub h.passing
  | runRetention cutoff vacuum => exact h.same rfl rfl rfl hsub h.passing
  | setMeta key value => exact h.same rfl rfl rfl hsub h.passing

theorem Stored.recv (h : Stored db s) (f : Flush) {cmd : WriterCmd} {rest : List WriterCmd}
    (hchannel : s.channel = cmd :: rest) :
    Stored db (writerRecv lim f { s with channel := rest } cmd) := by
  have hsub : rest ⊆ s.channel := hchannel ▸ List.subset_cons_self cmd rest
  have hrest : Stored db { s with channel := rest } := h.same rfl rfl rfl hsub h.passing
  cases cmd with
  | insert entry =>
    simp only [writerRecv]
    have hpushed : Stored db { s with channel := rest, buf := s.buf ++ [entry] } :=
      h.same rfl rfl rfl hsub h.passing
    split
    · exact flush_phase f _ ▸ hpushed.flush f s.phase h.passing
    · exact hpushed
  | runRetention cutoff vacuum =>
    have hcutoff : ∀ c, (Phase.ofRetention vacuum cutoff).cutoff = some c → c ∈ s.cutoffs := by
      intro c hc
      cases cutoff with
      | none => cases hc
      | some cutoff =>
        obtain rfl : cutoff = c := Option.some.inj hc
        exact h.asked cutoff vacuum (hchannel ▸ List.mem_cons_self)
    have hflush := hrest.flush f _ hcutoff
    exact hflush.same rfl rfl rfl (List.Subset.refl _) hflush.passing
  | setMeta key value => exact hrest.same rfl rfl rfl (List.Subset.refl _) h.passing

theorem Stored.finish (h : Stored db s) (f : Flush) (conn : Conn) :
    Stored db (finishPass f { s with conn := conn }) := by
  simp only [finishPass, foldl_setMeta]
  have hidle : Stored db { s with
      conn := conn, deferredMeta := [], phase := .idle, settled := s.settled + 1
      metaWritten := s.metaWritten ++ s.deferredMeta.map fun kv => ⟨kv, s.taken, s.settled + 1⟩ } :=
    h.same rfl rfl rfl (List.Subset.refl _) (fun c hc => by cases hc)
  exact flush_phase f _ ▸ hidle.flush f .idle (fun c hc => by cases hc)

theorem Stored.step (h : Stored db s) (heffect : Effect lim s s') : Stored db s' := by
  cases heffect with
  | accept cmd _ => exact h.accept cmd
  | refuse entry _ => exact h.same rfl rfl rfl (List.Subset.refl _) h.passing
  | recv f _ hchannel => exact h.recv f hchannel
  | flush f phase _ hcutoff => exact h.flush f phase (fun c hc => h.passing c (hcutoff ▸ hc))
  | delete hphase hids => exact h.delete hphase hids
  | turn conn phase _ _ hcutoff =>
    refine h.same rfl rfl rfl (List.Subset.refl _) ?_
    intro c hc
    rw [hcutoff] at hc
    cases hc
  | stash _ hchannel => exact h.stash hchannel
  | finish f conn _ => exact h.finish f conn

theorem stored_start (db : Db) : Stored db (start db) := by
  have hrows : allRows db [] = db.entries := List.append_nil _
  refine ⟨rfl, ?_, ?_, ?_, ?_⟩
  · exact hrows ▸ List.Sublist.refl _
  · intro r hr hgone
    replace hr : r ∈ allRows db [] := hr
    rw [hrows] at hr
    exact absurd hr hgone
  · intro cutoff vacuum hmem
    cases hmem
  · intro cutoff hcutoff
    cases hcutoff

/-! ### What is held in memory -/

structure Bounded (lim : Limits) (s : State) : Prop where
  channel : s.channel.length ≤ lim.channelCapacity
  buf : s.buf.length ≤ lim.stashMaxEntries
  idle : s.phase = .idle → s.buf.length < lim.flushBatchSize

@[simp] theorem buf_flush (f : Flush) (s : State) : (flush f s).buf = [] := by
  obtain ⟨conn, disk, written, failed, heq⟩ := flush_eq f s
  rw [heq]

@[simp] theorem channel_flush (f : Flush) (s : State) : (flush f s).channel = s.channel := by
  obtain ⟨conn, disk, written, failed, heq⟩ := flush_eq f s
  rw [heq]

theorem bounded_of_flushed (hchannel : s.channel.length ≤ lim.channelCapacity) (hbuf : s.buf = []) :
    Bounded lim s := by
  refine ⟨hchannel, ?_, fun _ => ?_⟩
  · rw [hbuf]
    exact Nat.zero_le _
  · rw [hbuf]
    exact lim.batch_pos

theorem Bounded.accept (h : Bounded lim s) {cmd : WriterCmd}
    (hroom : s.channel.length < lim.channelCapacity) : Bounded lim (s.accept cmd) := by
  have hlength : (s.channel ++ [cmd]).length ≤ lim.channelCapacity := by
    rw [List.length_append]
    exact hroom
  cases cmd with
  | insert entry => exact ⟨hlength, h.buf, h.idle⟩
  | runRetention cutoff vacuum => exact ⟨hlength, h.buf, h.idle⟩
  | setMeta key value => exact ⟨hlength, h.buf, h.idle⟩

theorem Bounded.recv (h : Bounded lim s) (f : Flush) {cmd : WriterCmd} {rest : List WriterCmd}
    (hrest : rest.length ≤ lim.channelCapacity) :
    Bounded lim (writerRecv lim f { s with channel := rest } cmd) := by
  cases cmd with
  | insert entry =>
    simp only [writerRecv]
    split
    · exact bounded_of_flushed (by simpa using hrest) (by simp)
    · next hlt =>
      refine ⟨hrest, ?_, fun _ => Nat.lt_of_not_le hlt⟩
      exact (Nat.le_of_lt (Nat.lt_of_not_le hlt)).trans lim.batch_le_stash
  | runRetention cutoff vacuum =>
    exact bounded_of_flushed (by simpa [writerRecv] using hrest) (by simp [writerRecv])
  | setMeta key value => exact ⟨hrest, h.buf, h.idle⟩

theorem Bounded.stash (h : Bounded lim s) {cmd : WriterCmd} {rest : List WriterCmd}
    (hpass : s.phase.inPass = true) (hrest : rest.length ≤ lim.channelCapacity) :
    Bounded lim (stashCmd lim { s with channel := rest } cmd) := by
  have hbusy : s.phase ≠ .idle := by
    intro hidle
    rw [hidle] at hpass
    cases hpass
  cases cmd with
  | insert entry =>
    simp only [stashCmd]
    split
    · exact ⟨hrest, h.buf, fun hidle => absurd hidle hbusy⟩
    · next hlt =>
      refine ⟨hrest, ?_, fun hidle => absurd hidle hbusy⟩
      rw [List.length_append]
      exact Nat.lt_of_not_le hlt
  | runRetention cutoff vacuum => exact ⟨hrest, h.buf, fun hidle => absurd hidle hbusy⟩
  | setMeta key value => exact ⟨hrest, h.buf, fun hidle => absurd hidle hbusy⟩

theorem Bounded.step (h : Bounded lim s) (heffect : Effect lim s s') : Bounded lim s' := by
  cases heffect with
  | accept cmd hroom => exact h.accept hroom
  | refuse entry _ => exact ⟨h.channel, h.buf, h.idle⟩
  | recv f _ hchannel =>
    have hlength := h.channel
    rw [hchannel, List.length_cons] at hlength
    exact h.recv f (Nat.le_of_succ_le hlength)
  | flush f phase _ _ => exact bounded_of_flushed (by simpa using h.channel) (by simp)
  | @delete cutoff vacuum ids _ _ =>
    obtain ⟨conn, disk, heq⟩ := setDb_eq s (s.db.delete fun i _ => i ∈ ids)
    rw [heq]
    exact ⟨h.channel, h.buf, Phase.noConfusion⟩
  | turn conn phase _ hpass' _ =>
    refine ⟨h.channel, h.buf, fun hidle => ?_⟩
    rw [show phase = .idle from hidle] at hpass'
    cases hpass'
  | stash hpass hchannel =>
    have hlength := h.channel
    rw [hchannel, List.length_cons] at hlength
    exact h.stash hpass (Nat.le_of_succ_le hlength)
  | finish f conn _ =>
    simp only [finishPass, foldl_setMeta]
    exact bounded_of_flushed (by simpa using h.channel) (by simp)

theorem underway_le (h : Bounded lim s) :
    s.underway.length ≤ lim.stashMaxEntries + lim.channelCapacity := by
  have hchannel : (inserts s.channel).length ≤ s.channel.length := List.length_filterMap_le _ _
  rw [State.underway, List.length_append]
  have hbuf := h.buf
  have hcapacity := h.channel
  omega

/-- What was handed in is in the table or on its way there, in order, or it was counted or not
taken by the database; the table misses only rows that are older than a cutoff that was asked for;
and what is on its way is bounded. -/
theorem entries_accounted (lim : Limits) (db : Db) (ls : List Label) (s : State)
    (hrun : run (step lim) (start db) ls = some s) :
    (s.written ++ s.underway).Sublist s.sent ∧
      s.sent.length =
        (s.written ++ s.underway).length + (s.dropped + s.stashDropped + s.failed) ∧
      s.disk.entries.Sublist (allRows db s.written) ∧
      (∀ e ∈ allRows db s.written, e ∉ s.disk.entries → ∃ cutoff ∈ s.cutoffs, e.2.ts < cutoff) ∧
      s.underway.length ≤ lim.stashMaxEntries + lim.channelCapacity := by
  have hpipe := accounted_run hrun
  have hstored : Stored db s := by
    have hkept : ∀ {s l s'}, Stored db s → step lim s l = some s' → Stored db s' :=
      fun h hstep => h.step (step_effect hstep)
    exact run_invariant hkept (stored_start db) hrun
  have hbounded : Bounded lim s := by
    have hkept : ∀ {s l s'}, Bounded lim s → step lim s l = some s' → Bounded lim s' :=
      fun h hstep => h.step (step_effect hstep)
    exact run_invariant hkept (bounded_of_flushed (Nat.zero_le _) rfl) hrun
  exact ⟨hpipe.order, hpipe.count, hstored.kept, hstored.purged, underway_le hbounded⟩

/-- Room for two of everything, and one row in a chunk. -/
def smallLimits : Limits where
  channelCapacity := 2
  flushBatchSize := 2
  stashMaxEntries := 2
  retentionDeleteChunk := 1

def login (ts : String) : AuditEntry where
  ts := ts
  tenant := "-"
  tokenHint := "-"
  op := "admin.login"
  status := "ok"
  extra := [("caller_ip", .string "10.0.0.1"), ("row_count", .null)]

/-- The third entry finds the channel full. The pass then deletes the first one, the fourth one is
written between two chunks, and the last one, which arrives during the rewrite, is not taken by
the database. -/
def lossyPass : List Label :=
  [.trySend (login "2025-01"), .trySend (login "2025-07"), .trySend (login "2025-08"),
    .recv (.commits []), .recv (.commits []),
    .send (.runRetention (some "2025-06") true), .send (.setMeta "last_vacuum_ts" "2025-08"),
    .recv (.commits []), .deleteExpiredChunk [1], .trySend (login "2025-09"),
    .tryRecv (.commits []), .tryRecv (.commits []), .tryRecv (.commits []),
    .deleteExpiredChunk [], .offload, .trySend (login "2025-10"), .stash, .joined (.commits [0])]

theorem entries_accounted_pass :
    ∃ s, run (step smallLimits) (start .empty) lossyPass = some s ∧
      s.disk.entries.map Prod.fst = [2, 3] ∧ s.dropped = 1 ∧ s.failed = 1 ∧
      s.sent.length = (s.written ++ s.underway).length + 2 := by
  have hsome : (run (step smallLimits) (start .empty) lossyPass).map (fun s =>
      (s.disk.entries.map Prod.fst, s.dropped, s.stashDropped, s.failed)) =
      some ([2, 3], 1, 0, 1) := by decide
  obtain ⟨s, hrun, heq⟩ := Option.map_eq_some_iff.mp hsome
  simp only [Prod.mk.injEq] at heq
  obtain ⟨hrows, hdropped, hstash, hfailed⟩ := heq
  obtain ⟨-, hcount, -, -, -⟩ := entries_accounted smallLimits .empty lossyPass s hrun
  rw [hdropped, hstash, hfailed] at hcount
  exact ⟨s, hrun, hrows, hdropped, hfailed, hcount⟩

/-- Without a drop and without a failing statement, nothing is missing. -/
theorem written_of_lossless (lim : Limits) (db : Db) (ls : List Label) (s : State)
    (hrun : run (step lim) (start db) ls = some s) (hdropped : s.dropped + s.stashDropped = 0)
    (hfailed : s.failed = 0) : s.written ++ s.underway = s.sent := by
  refine (accounted_run hrun).eq_of_lossless ?_
  simp only [State.pipe]
  omega

/-! ### The values for `_meta` -/

/-- The passes among some commands. -/
def passes (cmds : List WriterCmd) : Nat :=
  cmds.countP fun
    | .runRetention _ _ => true
    | _ => false

/-- The values among some commands, each with the number of passes that come before it. -/
def numbered : Nat → List WriterCmd → List ((String × String) × Nat)
  | _, [] => []
  | n, .insert _ :: cmds => numbered n cmds
  | n, .runRetention _ _ :: cmds => numbered (n + 1) cmds
  | n, .setMeta key value :: cmds => ((key, value), n) :: numbered n cmds

theorem numbered_append (n : Nat) (cmds cmds' : List WriterCmd) :
    numbered n (cmds ++ cmds') = numbered n cmds ++ numbered (n + passes cmds) cmds' := by
  induction cmds generalizing n with
  | nil => rfl
  | cons cmd cmds ih =>
    cases cmd with
    | insert entry => simp [numbered, passes, ih]
    | runRetention cutoff vacuum =>
      simp only [List.cons_append, numbered, ih, passes, List.countP_cons, ↓reduceIte]
      congr 2
      omega
    | setMeta key value => simp [numbered, passes, ih]

/-- A value that was sent after some passes, and written when all of them were taken and none was
open. -/
def Follows (sent : (String × String) × Nat) (written : MetaWrite) : Prop :=
  sent.1 = written.kv ∧ sent.2 ≤ written.taken ∧ written.settled = written.taken

/-- What was sent is written, deferred, or in the channel, in this order. -/
structure MetaOrdered (s : State) (done deferred : List ((String × String) × Nat)) : Prop where
  sent : s.metaSent = done ++ deferred ++ numbered s.taken s.channel
  written : List.Forall₂ Follows done s.metaWritten
  parked : deferred.map Prod.fst = s.deferredMeta
  before : ∀ d ∈ deferred, d.2 ≤ s.taken
  idle : s.phase.inPass = false → deferred = []
  asked : s.retentions = s.taken + passes s.channel
  settled : s.taken = s.settled + s.phase.inPass.toNat

variable {done deferred : List ((String × String) × Nat)}

/-- The fields that the order of the values is about. -/
theorem MetaOrdered.congr (h : MetaOrdered s done deferred) (hsent : s'.metaSent = s.metaSent)
    (hwritten : s'.metaWritten = s.metaWritten) (hparked : s'.deferredMeta = s.deferredMeta)
    (htaken : s'.taken = s.taken) (hsettled : s'.settled = s.settled)
    (hpass : s'.phase.inPass = s.phase.inPass) (hasked : s'.retentions = s.retentions)
    (hchannel : s'.channel = s.channel) : MetaOrdered s' done deferred := by
  constructor
  · rw [hsent, htaken, hchannel]
    exact h.sent
  · rw [hwritten]
    exact h.written
  · rw [hparked]
    exact h.parked
  · rw [htaken]
    exact h.before
  · rw [hpass]
    exact h.idle
  · rw [hasked, htaken, hchannel]
    exact h.asked
  · rw [htaken, hsettled, hpass]
    exact h.settled

theorem MetaOrdered.flush (h : MetaOrdered s done deferred) (f : Flush) (phase : Phase)
    (hpass : phase.inPass = s.phase.inPass) :
    MetaOrdered { AuditDb.flush f s with phase := phase } done deferred := by
  obtain ⟨conn, disk, written, failed, heq⟩ := flush_eq f s
  rw [heq]
  exact h.congr rfl rfl rfl rfl rfl hpass rfl rfl

theorem MetaOrdered.accept (h : MetaOrdered s done deferred) (cmd : WriterCmd) :
    MetaOrdered (s.accept cmd) done deferred := by
  have hnumbered := numbered_append s.taken s.channel [cmd]
  cases cmd with
  | insert entry =>
    refine ⟨?_, h.written, h.parked, h.before, h.idle, ?_, h.settled⟩
    · simpa [State.accept, hnumbered, numbered] using h.sent
    · simpa [State.accept, passes] using h.asked
  | runRetention cutoff vacuum =>
    refine ⟨?_, h.written, h.parked, h.before, h.idle, ?_, h.settled⟩
    · simpa [State.accept, hnumbered, numbered] using h.sent
    · simpa [State.accept, passes, ← Nat.add_assoc] using h.asked
  | setMeta key value =>
    refine ⟨?_, h.written, h.parked, h.before, h.idle, ?_, h.settled⟩
    · simp [State.accept, hnumbered, numbered, h.sent, h.asked]
    · simpa [State.accept, passes] using h.asked

theorem MetaOrdered.recv (h : MetaOrdered s done deferred) (lim : Limits) (f : Flush)
    {cmd : WriterCmd} {rest : List WriterCmd} (hidle : s.phase = .idle)
    (hchannel : s.channel = cmd :: rest) :
    ∃ done', MetaOrdered (writerRecv lim f { s with channel := rest } cmd) done' [] := by
  have hout : s.phase.inPass = false := congrArg Phase.inPass hidle
  obtain rfl : deferred = [] := h.idle hout
  have hsent := h.sent
  have hasked := h.asked
  have hsettled := h.settled
  rw [hchannel] at hsent hasked
  rw [hout] at hsettled
  cases cmd with
  | insert entry =>
    have hpushed : MetaOrdered { s with channel := rest, buf := s.buf ++ [entry] } done [] := by
      refine ⟨hsent, h.written, h.parked, h.before, h.idle, ?_, h.settled⟩
      simpa [passes] using hasked
    refine ⟨done, ?_⟩
    simp only [writerRecv]
    split
    · exact flush_phase f _ ▸ hpushed.flush f s.phase rfl
    · exact hpushed
  | runRetention cutoff vacuum =>
    have hin : (Phase.ofRetention vacuum cutoff).inPass = true := by cases cutoff <;> rfl
    have hrest : MetaOrdered { s with
        channel := rest, phase := .ofRetention vacuum cutoff, taken := s.taken + 1 } done [] := by
      refine ⟨hsent, h.written, h.parked, List.forall_mem_nil _, fun _ => rfl, ?_, ?_⟩
      · simp only [passes, List.countP_cons, ↓reduceIte] at hasked
        rw [passes, Nat.add_right_comm]
        exact hasked
      · rw [hin]
        exact congrArg (· + 1) hsettled
    obtain ⟨conn, disk, written, failed, heq⟩ := flush_eq f { s with channel := rest }
    refine ⟨done, ?_⟩
    simp only [writerRecv, heq]
    exact hrest.congr rfl rfl rfl rfl rfl rfl rfl rfl
  | setMeta key value =>
    refine ⟨done ++ [((key, value), s.taken)], ?_, ?_, h.parked, List.forall_mem_nil _,
      fun _ => rfl, ?_, h.settled⟩
    · simpa [writerRecv, State.setMeta, numbered] using hsent
    · -- the writer is in no pass, so that none is open
      have hfollows : Follows ((key, value), s.taken) ⟨(key, value), s.taken, s.settled⟩ :=
        ⟨rfl, Nat.le_refl _, hsettled.symm⟩
      exact List.rel_append h.written (.cons hfollows .nil)
    · simpa [writerRecv, State.setMeta, passes] using hasked

theorem MetaOrdered.stash (h : MetaOrdered s done deferred) (lim : Limits) {cmd : WriterCmd}
    {rest : List WriterCmd} (hpass : s.phase.inPass = true) (hchannel : s.channel = cmd :: rest) :
    ∃ deferred', MetaOrdered (stashCmd lim { s with channel := rest } cmd) done deferred' := by
  have hsent := h.sent
  have hasked := h.asked
  have hbusy : s.phase.inPass ≠ false := by simp [hpass]
  rw [hchannel] at hsent hasked
  cases cmd with
  | insert entry =>
    refine ⟨deferred, ?_⟩
    have hrest : MetaOrdered { s with channel := rest } done deferred := by
      refine ⟨hsent, h.written, h.parked, h.before, h.idle, ?_, h.settled⟩
      simpa [passes] using hasked
    simp only [stashCmd]
    split
    · exact hrest.congr rfl rfl rfl rfl rfl rfl rfl rfl
    · exact hrest.congr rfl rfl rfl rfl rfl rfl rfl rfl
  | runRetention cutoff vacuum =>
    refine ⟨deferred, hsent, h.written, h.parked, ?_, h.idle, ?_, ?_⟩
    · exact fun d hd => Nat.le_succ_of_le (h.before d hd)
    · simp only [passes, List.countP_cons, ↓reduceIte] at hasked
      simp only [stashCmd, passes]
      omega
    · have hsettled := h.settled
      simp only [stashCmd]
      omega
  | setMeta key value =>
    refine ⟨deferred ++ [((key, value), s.taken)], ?_, h.written, ?_, ?_, ?_, ?_, h.settled⟩
    · simpa [stashCmd, numbered] using hsent
    · simp [stashCmd, h.parked]
    · intro d hd
      obtain hd | hd := List.mem_append.mp hd
      · exact h.before d hd
      · rw [List.mem_singleton.mp hd]
        exact Nat.le_refl _
    · exact fun hidle => absurd hidle hbusy
    · simpa [stashCmd, passes] using hasked

/-- At the end of a pass the deferred values are written, and no pass is open then. -/
theorem MetaOrdered.finish (h : MetaOrdered s done deferred) (f : Flush) (conn : Conn)
    (hpass : s.phase.inPass = true) :
    MetaOrdered (finishPass f { s with conn := conn }) (done ++ deferred) [] := by
  have hsettled := h.settled
  rw [hpass] at hsettled
  simp only [finishPass, foldl_setMeta]
  have hidle : MetaOrdered { s with
      conn := conn, deferredMeta := [], phase := .idle, settled := s.settled + 1
      metaWritten := s.metaWritten ++ s.deferredMeta.map fun kv => ⟨kv, s.taken, s.settled + 1⟩ }
      (done ++ deferred) [] := by
    refine ⟨?_, ?_, rfl, List.forall_mem_nil _, fun _ => rfl, h.asked, hsettled⟩
    · rw [List.append_nil]
      exact h.sent
    · refine List.rel_append h.written ?_
      rw [← h.parked, List.map_map, List.forall₂_map_right_iff, List.forall₂_same]
      exact fun d hd => ⟨rfl, h.before d hd, hsettled.symm⟩
  exact flush_phase f _ ▸ hidle.flush f .idle rfl

theorem MetaOrdered.step (h : MetaOrdered s done deferred) (heffect : Effect lim s s') :
    ∃ done' deferred', MetaOrdered s' done' deferred' := by
  cases heffect with
  | accept cmd _ => exact ⟨_, _, h.accept cmd⟩
  | refuse entry _ => exact ⟨_, _, h.congr rfl rfl rfl rfl rfl rfl rfl rfl⟩
  | recv f hidle hchannel =>
    obtain ⟨done', hrecv⟩ := h.recv lim f hidle hchannel
    exact ⟨_, _, hrecv⟩
  | flush f phase hpass _ => exact ⟨_, _, h.flush f phase hpass⟩
  | @delete cutoff vacuum ids hphase _ =>
    have hpass : (Phase.absorbing cutoff vacuum).inPass = s.phase.inPass :=
      (congrArg Phase.inPass hphase).symm
    obtain ⟨conn, disk, heq⟩ := setDb_eq s (s.db.delete fun i _ => i ∈ ids)
    rw [heq]
    exact ⟨_, _, h.congr rfl rfl rfl rfl rfl hpass rfl rfl⟩
  | turn conn phase hpass hpass' _ =>
    exact ⟨_, _, h.congr rfl rfl rfl rfl rfl (hpass'.trans hpass.symm) rfl rfl⟩
  | stash hpass hchannel =>
    obtain ⟨deferred', hstash⟩ := h.stash lim hpass hchannel
    exact ⟨_, _, hstash⟩
  | finish f conn hpass => exact ⟨_, _, h.finish f conn hpass⟩

/-- The values for `_meta` are written in the order in which they were sent, and each of them when
every pass that was asked for before it is over or skipped. -/
theorem meta_follows_passes (lim : Limits) (db : Db) (ls : List Label) (s : State)
    (hrun : run (step lim) (start db) ls = some s) :
    ∃ done, done <+: s.metaSent ∧ List.Forall₂ Follows done s.metaWritten := by
  have hordered : ∃ done deferred, MetaOrdered s done deferred := by
    have hkept : ∀ {s l s'}, (∃ done deferred, MetaOrdered s done deferred) →
        step lim s l = some s' → ∃ done deferred, MetaOrdered s' done deferred := by
      rintro s l s' ⟨done, deferred, h⟩ hstep
      exact h.step (step_effect hstep)
    refine run_invariant hkept ⟨[], [], ?_⟩ hrun
    exact ⟨rfl, .nil, rfl, List.forall_mem_nil _, fun _ => rfl, rfl, rfl⟩
  obtain ⟨done, deferred, h⟩ := hordered
  refine ⟨done, ?_, h.written⟩
  rw [h.sent, List.append_assoc]
  exact List.prefix_append _ _

theorem meta_follows_passes_pass :
    ∃ s, run (step smallLimits) (start .empty) lossyPass = some s ∧ s.retentions = 1 ∧
      ∃ done, done <+: s.metaSent ∧ List.Forall₂ Follows done s.metaWritten ∧
        s.metaWritten.map MetaWrite.settled = [1] := by
  have hsome : (run (step smallLimits) (start .empty) lossyPass).map (fun s =>
      (s.retentions, s.metaWritten.map MetaWrite.settled)) = some (1, [1]) := by decide
  obtain ⟨s, hrun, heq⟩ := Option.map_eq_some_iff.mp hsome
  simp only [Prod.mk.injEq] at heq
  obtain ⟨done, hdone, hfollows⟩ := meta_follows_passes smallLimits .empty lossyPass s hrun
  exact ⟨s, hrun, heq.1, done, hdone, hfollows, heq.2⟩

end AuditDb

end Drust
