import Drust.Rpc.ExecWrite

/-!
# A write call is all or nothing

Whatever fails, a write call leaves the contents it found unless it answers with the outcome
of a call that was no dry run, and it leaves the writer connection as the next caller needs
it. The one failure that it cannot undo is that of the `RELEASE` itself.

Between the `SAVEPOINT` and its resolution the connection is in one of two states
(`InSavepoint`): the executor's savepoint is on top of the stack that the call found, or the
transaction was rolled back behind its back and no savepoint is left. In the first a
`ROLLBACK TO` restores the contents and a `RELEASE` the stack; in the second the `RELEASE`
finds no savepoint and fails. The statements of the body keep to these states because the
authorizer that is attached denies transaction statements (`executeAll_inSavepoint`).

Every early return goes through `unwind`, so one lemma carries them (`settled_unwind`).
-/

namespace Drust.ExecWrite

open Sql

variable {δ : Type} (pf : Platform) (st : Steps δ) {c₀ : Conn δ} {e : Exec δ}

/-- The executor's savepoint is on top of the stack that the call found. -/
def Open (c₀ : Conn δ) (e : Exec δ) : Prop :=
  e.conn.savepoints = (savepointName, c₀.db) :: c₀.savepoints

/-- The call has opened its savepoint and not resolved it. -/
def InSavepoint (c₀ : Conn δ) (e : Exec δ) : Prop :=
  Open c₀ e ∨ e.conn.toTxn = c₀.toTxn.abort

/-- The hook is off, or it is the one that the call found. -/
def HookOff (c₀ : Conn δ) (e : Exec δ) : Prop :=
  .removeHook false ∉ e.events → e.conn.hook = none ∨ e.conn.hook = c₀.hook

/-- What a call is for: it changes the contents only where it says so, and leaves a clean
connection. -/
structure Atomic (c₀ : Conn δ) (dryRun : Bool) (out : RpcResult × Exec δ) : Prop where
  db : out.2.conn.db = c₀.db ∨
    (dryRun = false ∧ ∃ o, out.1 = .ok (.ok o) ∧ o.dryRun = false) ∨
    (.release false ∈ out.2.events ∧ (∃ m, out.1 = .error m) ∧
      (dryRun = false ∨ c₀.savepoints ≠ []))
  stack : .release false ∉ out.2.events → out.2.conn.savepoints = c₀.savepoints
  authorizer : out.2.conn.authorizer = .allowAll
  hook : HookOff c₀ out.2

/-! ### Resolving the savepoint -/

/-- The two ends of a `RELEASE`. -/
theorem execRelease_cases (hauth : e.conn.authorizer = .allowAll) :
    (∃ t, e.conn.toTxn.release savepointName = some t ∧
      execRelease st e = (.ok (), (e.setTxn t).log (.release true))) ∨
    ∃ m t, (t = e.conn.toTxn ∨ t = e.conn.toTxn.abort) ∧
      execRelease st e = (.error m, (e.setTxn t).log (.release false)) := by
  have hallowed : deniesControl e = false := by simp [deniesControl, hauth]
  unfold execRelease
  rw [hallowed]
  simp only [Bool.false_eq_true, if_false]
  cases hrel : e.conn.toTxn.release savepointName with
  | none => exact .inr ⟨_, _, .inl rfl, rfl⟩
  | some t =>
    cases st.release with
    | done => exact .inl ⟨t, rfl, rfl⟩
    | failed m => exact .inr ⟨m, _, .inl rfl, rfl⟩
    | aborted m => exact .inr ⟨m, _, .inr rfl, rfl⟩

/-- After a `ROLLBACK TO` the contents are those before the call, except when the
transaction was lost. -/
theorem execRollbackTo_inSavepoint (hauth : e.conn.authorizer = .allowAll)
    (hin : InSavepoint c₀ e) :
    ∃ t, execRollbackTo e = e.setTxn t ∧
      (t = { db := c₀.db, savepoints := (savepointName, c₀.db) :: c₀.savepoints } ∨
        t = c₀.toTxn.abort) := by
  have hallowed : deniesControl e = false := by simp [deniesControl, hauth]
  unfold execRollbackTo
  rw [hallowed]
  simp only [Bool.false_eq_true, if_false]
  obtain hopen | hlost := hin
  · rw [Txn.rollbackTo_top hopen]
    exact ⟨_, rfl, .inl rfl⟩
  · have hnil : e.conn.savepoints = [] := by
      rw [hlost]
      rfl
    rw [Txn.rollbackTo_of_nil hnil]
    exact ⟨e.conn.toTxn, rfl, .inr hlost⟩

/-- Giving the savepoint up: the two steps together either restore what the call found, or
the `RELEASE` fails and what is left is not what the body wrote. -/
theorem giveUp_spec (hauth : e.conn.authorizer = .allowAll) (hin : InSavepoint c₀ e) :
    ∃ r t ok, execRelease st (execRollbackTo e) = (r, (e.setTxn t).log (.release ok)) ∧
      ((ok = true ∧ r = .ok () ∧ t = c₀.toTxn) ∨
        (ok = false ∧ (∃ m, r = .error m) ∧ (t.db = c₀.db ∨ t = c₀.toTxn.abort))) := by
  obtain ⟨s, hs, hcases⟩ := execRollbackTo_inSavepoint hauth hin
  rw [hs]
  have habort : s.abort = c₀.toTxn.abort := by
    obtain rfl | rfl := hcases
    · exact Txn.abort_push rfl
    · exact Txn.abort_of_nil rfl
  have hauth' : (e.setTxn s).conn.authorizer = .allowAll := hauth
  obtain ⟨t, hrel, heq⟩ | ⟨m, t, ht, heq⟩ := execRelease_cases st hauth'
  · -- a savepoint was released, so it was the executor's own
    refine ⟨_, t, true, heq, .inl ⟨rfl, rfl, ?_⟩⟩
    obtain rfl | rfl := hcases
    · rw [show (e.setTxn _).conn.toTxn.release savepointName = _ from Txn.release_top rfl] at hrel
      exact (Option.some.inj hrel).symm
    · rw [show (e.setTxn _).conn.toTxn.release savepointName = _ from Txn.release_of_nil rfl] at hrel
      cases hrel
  · refine ⟨_, t, false, heq, .inr ⟨rfl, ⟨m, rfl⟩, ?_⟩⟩
    obtain rfl | rfl := ht
    · obtain rfl | rfl := hcases
      · exact .inl rfl
      · exact .inr rfl
    · exact .inr habort

/-- A call that gave its savepoint up. -/
theorem atomic_of_givenUp (hauth : e.conn.authorizer = .allowAll) (hhook : HookOff c₀ e)
    (dryRun : Bool) {ret : RpcResult} {t : Txn δ} {ok : Bool}
    (h : (ok = true ∧ t = c₀.toTxn) ∨
      (ok = false ∧ (∃ m, ret = .error m) ∧ (t.db = c₀.db ∨ t = c₀.toTxn.abort))) :
    Atomic c₀ dryRun (ret, (e.setTxn t).log (.release ok)) where
  authorizer := hauth
  hook := by
    intro hmem
    exact hhook (fun hin => hmem (List.mem_append_left _ hin))
  stack := by
    intro hmem
    obtain ⟨-, rfl⟩ | ⟨rfl, -⟩ := h
    · rfl
    · exact absurd (List.mem_append_right _ (List.mem_singleton_self _)) hmem
  db := by
    obtain ⟨-, rfl⟩ | ⟨rfl, hret, hdb | rfl⟩ := h
    · exact .inl rfl
    · exact .inl hdb
    · -- the transaction is lost; it was the call's own unless a savepoint was open before
      by_cases hnil : c₀.savepoints = []
      · left
        show c₀.toTxn.abort.db = c₀.db
        rw [Txn.abort_of_nil hnil]
      · exact .inr (.inr ⟨List.mem_append_right _ (List.mem_singleton_self _), hret, .inr hnil⟩)

theorem atomic_unwind (hauth : e.conn.authorizer = .allowAll) (hin : InSavepoint c₀ e)
    (hhook : HookOff c₀ e) (dryRun : Bool) (ret : RpcResult) :
    Atomic c₀ dryRun (unwind st ret e) := by
  obtain ⟨r, t, ok, heq, hcases⟩ := giveUp_spec st hauth hin
  unfold unwind
  rw [heq]
  obtain ⟨rfl, rfl, ht⟩ | ⟨rfl, ⟨m, rfl⟩, ht⟩ := hcases
  · exact atomic_of_givenUp hauth hhook dryRun (.inl ⟨rfl, ht⟩)
  · exact atomic_of_givenUp hauth hhook dryRun (.inr ⟨rfl, ⟨_, rfl⟩, ht⟩)

/-! ### The steps after the body -/

theorem atomic_resolve (hauth : e.conn.authorizer = .allowAll) (hin : InSavepoint c₀ e)
    (hhook : HookOff c₀ e) (dryRun : Bool) {error : Option RpcStatementError}
    (hopen : error = none → Open c₀ e) (p : Progress) :
    Atomic c₀ dryRun (resolve st dryRun error p e) := by
  unfold resolve
  by_cases hback : (error.isSome || dryRun) = true
  · obtain ⟨r, t, ok, heq, hcases⟩ := giveUp_spec st hauth hin
    simp only [hback, if_true, heq]
    obtain ⟨rfl, rfl, ht⟩ | ⟨rfl, ⟨m, rfl⟩, ht⟩ := hcases
    · exact atomic_of_givenUp hauth hhook dryRun (.inl ⟨rfl, ht⟩)
    · exact atomic_of_givenUp hauth hhook dryRun (.inr ⟨rfl, ⟨_, rfl⟩, ht⟩)
  · -- the commit path: there was no error and this is no dry run
    obtain ⟨herror, hdry⟩ : error = none ∧ dryRun = false := by
      simpa using hback
    subst herror hdry
    simp only [Option.isSome_none, Bool.or_self, Bool.false_eq_true, if_false]
    have hhook' : ∀ {t ok}, HookOff c₀ ((e.setTxn t).log (.release ok)) :=
      fun hmem => hhook (fun hin => hmem (List.mem_append_left _ hin))
    obtain ⟨t, hrel, heq⟩ | ⟨m, t, ht, heq⟩ := execRelease_cases st hauth
    · rw [heq]
      rw [Txn.release_top (hopen rfl)] at hrel
      obtain rfl := Option.some.inj hrel
      exact ⟨.inr (.inl ⟨rfl, _, rfl, rfl⟩), fun _ => rfl, hauth, hhook'⟩
    · rw [heq]
      have hmem : Event.release false ∈ e.events ++ [.release false] :=
        List.mem_append_right _ (List.mem_singleton_self _)
      exact ⟨.inr (.inr ⟨hmem, ⟨_, rfl⟩, .inl rfl⟩), fun hnot => absurd hmem hnot, hauth, hhook'⟩

theorem atomic_recheckQuota (hauth : e.conn.authorizer = .allowAll) (hin : InSavepoint c₀ e)
    (hhook : HookOff c₀ e) (tier : Int) (dryRun : Bool) {error : Option RpcStatementError}
    (hopen : error = none → Open c₀ e) (p : Progress) :
    Atomic c₀ dryRun (recheckQuota st tier dryRun error p e) := by
  unfold recheckQuota
  split
  · split
    · exact atomic_unwind st hauth hin hhook dryRun _
    · exact atomic_resolve st hauth hin hhook dryRun hopen p
    · -- the failed probe is the answer, whether or not the release fails
      obtain ⟨r, t, ok, heq, hcases⟩ := giveUp_spec st hauth hin
      rw [heq]
      obtain ⟨rfl, -, ht⟩ | ⟨rfl, -, ht⟩ := hcases
      · exact atomic_of_givenUp hauth hhook dryRun (.inl ⟨rfl, ht⟩)
      · exact atomic_of_givenUp hauth hhook dryRun (.inr ⟨rfl, ⟨_, rfl⟩, ht⟩)
  · exact atomic_resolve st hauth hin hhook dryRun hopen p

theorem atomic_flushCaptured (hauth : e.conn.authorizer = .allowAll) (hin : InSavepoint c₀ e)
    (hhook : HookOff c₀ e) (captured : Bool) (tier : Int) (dryRun : Bool)
    {error : Option RpcStatementError} (hopen : error = none → Open c₀ e) (p : Progress) :
    Atomic c₀ dryRun (flushCaptured st captured tier dryRun error p e) := by
  unfold flushCaptured
  split
  · next hflush =>
    have herror : error = none := by
      simp only [Bool.and_eq_true, Option.isNone_iff_eq_none] at hflush
      exact hflush.1
    have hdb : ∀ db, Open c₀ (e.setDb db) := fun _ => hopen herror
    have hlost : InSavepoint c₀ (e.setTxn e.conn.toTxn.abort) :=
      .inr (Txn.abort_push (hopen herror))
    cases st.flush with
    | done db =>
      exact atomic_recheckQuota st (e := e.setDb db) hauth (.inl (hdb db)) hhook tier dryRun
        (fun _ => hdb db) p
    | failed db err =>
      exact atomic_unwind st (e := e.setDb db) hauth (.inl (hdb db)) hhook dryRun _
    | aborted err =>
      exact atomic_unwind st (e := e.setTxn e.conn.toTxn.abort) hauth hlost hhook dryRun _
  · exact atomic_recheckQuota st hauth hin hhook tier dryRun hopen p

/-! ### The body -/

/-- One statement under the writable authorizer: it changes contents only, and where it
succeeds the savepoint is still open. -/
theorem executeOne_open (hopen : Open c₀ e) (hauth : e.conn.authorizer = .writable) (sql : String)
    (binds : List (String × BoundValue)) (index : Nat) :
    ∃ r t, executeOne pf st sql binds index e = (r, e.setTxn t) ∧ InSavepoint c₀ (e.setTxn t) ∧
      ∀ o, r = .ok o → Open c₀ (e.setTxn t) := by
  have hdenies : deniesControl e = true := by simp [deniesControl, hauth]
  unfold executeOne
  simp only
  split
  · exact ⟨_, _, rfl, .inl hopen, fun _ _ => hopen⟩
  · refine ⟨_, _, rfl, .inl hopen, ?_⟩
    intro o ho
    cases ho
  · refine ⟨_, _, rfl, .inr (Txn.abort_push hopen), ?_⟩
    intro o ho
    cases ho
  · rw [if_pos hdenies]
    refine ⟨_, e.conn.toTxn, rfl, .inl hopen, ?_⟩
    intro o ho
    cases ho

/-- The loop, by induction on the statements: all that changes is the transaction. -/
theorem executeAll_open (binds : List (String × BoundValue)) (stmts : List String) :
    ∀ {e : Exec δ} (_ : Open c₀ e) (_ : e.conn.authorizer = .writable) (i : Nat) (p : Progress),
      ∃ error p' t, executeAll pf st binds i stmts p e = (error, p', e.setTxn t) ∧
        InSavepoint c₀ (e.setTxn t) ∧ (error = none → Open c₀ (e.setTxn t)) := by
  induction stmts with
  | nil =>
    intro e hopen _ i p
    exact ⟨none, p, e.conn.toTxn, rfl, .inl hopen, fun _ => hopen⟩
  | cons stmt stmts ih =>
    intro e hopen hauth i p
    obtain ⟨r, t, heq, hin, hok⟩ := executeOne_open pf st hopen hauth stmt binds (i + 1)
    simp only [executeAll, heq]
    cases r with
    | error err =>
      refine ⟨some err, _, t, rfl, hin, ?_⟩
      intro herr
      cases herr
    | ok o =>
      have hopen' := hok o rfl
      exact ih hopen' hauth (i + 1) _

/-- Being in the savepoint is a matter of the transaction alone. -/
theorem InSavepoint.congr {e' : Exec δ} (h : InSavepoint c₀ e)
    (heq : e'.conn.toTxn = e.conn.toTxn) : InSavepoint c₀ e' := by
  rwa [InSavepoint, Open, heq]

/-- Taking the hook off: it is off, unless the removal failed. -/
theorem removePreupdateCapture_spec (c₀ : Conn δ) (e : Exec δ) :
    ∃ r e', removePreupdateCapture st e = (r, e') ∧ e'.conn.toTxn = e.conn.toTxn ∧
      HookOff c₀ e' := by
  unfold removePreupdateCapture
  cases st.removeCapture with
  | error m =>
    refine ⟨_, _, rfl, rfl, ?_⟩
    intro hmem
    exact absurd (List.mem_append_right _ (List.mem_singleton_self _)) hmem
  | ok u => exact ⟨_, _, rfl, rfl, fun _ => .inl rfl⟩

theorem installPreupdateCapture_spec {audited : List String} {e e' : Exec δ}
    (h : installPreupdateCapture st audited e = .ok e') :
    e'.conn.toTxn = e.conn.toTxn ∧ e'.conn.authorizer = e.conn.authorizer := by
  unfold installPreupdateCapture at h
  split at h
  · cases h
  · rw [← Except.ok.inj h]
    exact ⟨rfl, rfl⟩

theorem atomic_runBody (hopen : Open c₀ e) (hauth : e.conn.authorizer = .writable)
    {captured : Bool} (hhook : captured = false → HookOff c₀ e) (sql : String)
    (bound : List (String × BoundValue)) (tier : Int) (dryRun : Bool) :
    Atomic c₀ dryRun (runBody pf st sql bound captured tier dryRun e) := by
  unfold runBody
  split
  · -- the body does not split: nothing was run
    cases captured with
    | false =>
      exact atomic_unwind st (e := detachAuthorizer e) rfl (.inl hopen) (hhook rfl) dryRun _
    | true =>
      obtain ⟨r, e', heq, htxn, hoff⟩ := removePreupdateCapture_spec st c₀ e
      have hin : InSavepoint c₀ e' := InSavepoint.congr (.inl hopen) htxn
      simp only [heq, if_true]
      exact atomic_unwind st (e := detachAuthorizer e') rfl hin hoff dryRun _
  · next stmts _ =>
    obtain ⟨error, p, t, heq, hin, hnone⟩ := executeAll_open pf st bound stmts hopen hauth 0 {}
    rw [heq]
    simp only
    cases captured with
    | false =>
      exact atomic_flushCaptured st (e := detachAuthorizer (e.setTxn t)) rfl hin (hhook rfl) false
        tier dryRun hnone p
    | true =>
      obtain ⟨r, e', heq', htxn, hoff⟩ := removePreupdateCapture_spec st c₀ (e.setTxn t)
      have hin' : InSavepoint c₀ e' := hin.congr htxn
      simp only [heq', if_true]
      cases r with
      | error m => exact atomic_unwind st (e := detachAuthorizer e') rfl hin' hoff dryRun _
      | ok u =>
        refine atomic_flushCaptured st (e := detachAuthorizer e') rfl hin' hoff true tier dryRun
          ?_ p
        intro herror
        show e'.conn.toTxn.savepoints = _
        rw [htxn]
        exact hnone herror

theorem atomic_runInSavepoint (c₀ : Conn δ) {e : Exec δ} (hauth : e.conn.authorizer = .allowAll)
    (htxn : e.conn.toTxn = c₀.toTxn) (hhook : e.conn.hook = c₀.hook) (sql : String)
    (bound : List (String × BoundValue)) (audited : List String) (tier : Int) (dryRun : Bool) :
    Atomic c₀ dryRun (runInSavepoint pf st sql bound audited tier dryRun e) := by
  unfold runInSavepoint execSavepoint
  rw [show deniesControl e = false by simp [deniesControl, hauth]]
  simp only [Bool.false_eq_true, if_false]
  cases st.savepoint with
  | error m =>
    exact ⟨.inl (by rw [htxn]), fun _ => by rw [htxn], hauth, fun _ => .inr hhook⟩
  | ok u =>
    simp only
    -- the savepoint is on top, and holds the contents of the connection
    generalize he' : attachWritableAuthorizer
      (e.setTxn (e.conn.toTxn.savepoint savepointName)) = e'
    have hopen : Open c₀ e' := by
      subst he'
      show (savepointName, e.conn.db) :: e.conn.savepoints = _
      rw [htxn]
    have hauth' : e'.conn.authorizer = .writable := by rw [← he']; rfl
    have hhook' : HookOff c₀ e' := by
      intro _
      rw [← he']
      exact .inr hhook
    split
    · exact atomic_runBody pf st hopen hauth' (fun _ => hhook') sql bound tier dryRun
    · cases hins : installPreupdateCapture st audited e' with
      | error m =>
        exact atomic_unwind st (e := detachAuthorizer e') rfl (.inl hopen) hhook' dryRun _
      | ok e'' =>
        obtain ⟨htxn', hauth''⟩ := installPreupdateCapture_spec st hins
        have hopen' : Open c₀ e'' := by
          rw [Open, htxn']
          exact hopen
        exact atomic_runBody pf st hopen' (hauth''.trans hauth') (by simp) sql bound tier dryRun

/-- Every run of a write call is atomic. -/
theorem atomic_runWriteRpc (sql : String) (bound : List (String × BoundValue)) (dryRun : Bool)
    (tier : Int) (conn : Conn δ) :
    Atomic conn dryRun (runWriteRpc pf st sql bound dryRun tier conn) := by
  -- before the savepoint the call has only detached the authorizer
  have hearly : ∀ r, Atomic conn dryRun (r, detachAuthorizer { conn := conn }) :=
    fun r => ⟨.inl rfl, fun _ => rfl, rfl, fun _ => .inr rfl⟩
  unfold runWriteRpc
  simp only
  split
  · exact hearly _
  · exact hearly _
  · split
    · exact hearly _
    · split
      · exact hearly _
      · exact atomic_runInSavepoint pf st conn (e := detachAuthorizer { conn := conn }) rfl rfl rfl
          sql bound _ tier dryRun

/-- A write call is all or nothing, up to the `RELEASE`. For every body and every pattern of
failures: the contents change only when the answer is the outcome of a call that was no dry
run, or when the `RELEASE` itself failed, which is answered with an error and cannot happen
to a dry run unless a savepoint was already open. Where neither the `RELEASE` nor the
removal of the hook failed, the connection has the savepoints it had, allows everything, and
carries no hook of this call. -/
theorem runWriteRpc_allOrNothing (sql : String) (bound : List (String × BoundValue))
    (dryRun : Bool) (tier : Int) (conn : Conn δ) :
    let out := runWriteRpc pf st sql bound dryRun tier conn
    (out.2.conn.db ≠ conn.db →
      (dryRun = false ∧ ∃ o, out.1 = .ok (.ok o) ∧ o.dryRun = false) ∨
      (.release false ∈ out.2.events ∧ (∃ m, out.1 = .error m) ∧
        (dryRun = false ∨ conn.savepoints ≠ []))) ∧
    (.release false ∉ out.2.events → .removeHook false ∉ out.2.events →
      out.2.conn.savepoints = conn.savepoints ∧ out.2.conn.authorizer = .allowAll ∧
      (out.2.conn.hook = none ∨ out.2.conn.hook = conn.hook)) := by
  intro out
  have hatomic : Atomic conn dryRun out := atomic_runWriteRpc pf st sql bound dryRun tier conn
  refine ⟨fun hne => hatomic.db.resolve_left hne, ?_⟩
  intro hrel hremove
  exact ⟨hatomic.stack hrel, hatomic.authorizer, hatomic.hook hremove⟩

/-! ### A release that fails -/

/-- A body of one statement that leaves a violation of a deferred foreign key behind, which
SQLite reports at the `RELEASE`. The contents are a count of rows. -/
def deferredViolation : Steps Nat where
  usage := .ok 4096
  auditedDataTables := .ok []
  snapshotSearchTables := .ok ()
  savepoint := .ok ()
  installCapture := .ok ()
  statement := fun _ _ _ rows => .done (rows + 1) (.changed 1 1)
  removeCapture := .ok ()
  flush := .done 0
  usageAgain := .ok 4096
  release := .failed "FOREIGN KEY constraint failed"

/-- The changes of the body stay on the connection, although the call is answered with an
error: the contents do not change only together with an outcome. -/
theorem runWriteRpc_release_fails :
    ¬ ∀ (pf : Platform) (st : Steps Nat) (sql : String) (bound : List (String × BoundValue))
        (dryRun : Bool) (tier : Int) (conn : Conn Nat),
      (runWriteRpc pf st sql bound dryRun tier conn).2.conn.db ≠ conn.db →
        dryRun = false ∧ ∃ o, (runWriteRpc pf st sql bound dryRun tier conn).1 = .ok (.ok o) := by
  intro h
  have hrun : ∃ m, (runWriteRpc ⟨fun _ => true, fun _ => ""⟩ deferredViolation
      "INSERT INTO child (parent) VALUES (7)" [] false 1 { db := 0 }).1 = .error m := ⟨_, rfl⟩
  obtain ⟨m, hm⟩ := hrun
  obtain ⟨-, o, ho⟩ := h ⟨fun _ => true, fun _ => ""⟩ deferredViolation
    "INSERT INTO child (parent) VALUES (7)" [] false 1 { db := 0 } (by decide)
  rw [hm] at ho
  cases ho

end Drust.ExecWrite
