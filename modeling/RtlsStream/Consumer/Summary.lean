/-
  Consumer/Summary.lean --- the embedded handler does what its summary says.

  `onMessage` gives the outcome of a delivery as a value: the decision, what is published,
  and how the counters move.  `embedded_handled` says that the program, with its `try`
  blocks and spans, comes to that outcome, where the calls that return are those that also
  get parameters their columns take (`callsFor`).
-/
import RtlsStream.Consumer.Handlers

set_option autoImplicit false

namespace RtlsStream.Consumer

open RtlsStream.Foundation RtlsStream.Foundation.Program RtlsStream.Python RtlsStream.Store

variable {ι Context Headers : Type}
variable [Runtime] [Postgres] (db : DbCall → DbOutcome)

/-- The calls that return for an envelope: a statement also needs parameters that its
columns take. -/
def callsFor (envelope : Dict Json) : DbCall → Bool
  | .insert => db .insert == .returns && (Store.insertPositionEvent.rowOf envelope).isSome
  | .upsert => db .upsert == .returns && (Store.upsertCurrentPosition.rowOf envelope).isSome
  | call => db call == .returns

/-- The calls that return for a message. -/
def callsOf (body : Bytes) : DbCall → Bool :=
  match examine body with
  | .accepted envelope _ => callsFor db envelope
  | _ => fun call => db call == .returns

omit [Runtime] [Postgres] in
theorem exec_perform_isOk (call : DbCall) (effect : Storage → Storage) (s : Storage) :
    (exec (perform db call effect) s).1.isOk = (db call == .returns) := by
  rw [exec_perform]
  cases db call <;> rfl

/-- A statement returns when its call does and the row can be bound. -/
theorem exec_executeWith_isOk (call : DbCall) (statement : Insert)
    (effect : Row → Storage → Storage) (envelope : Dict Json) (s : Storage) :
    (exec (executeWith db call statement effect envelope) s).1.isOk =
      (db call == .returns && (statement.rowOf envelope).isSome) := by
  simp only [executeWith, exec_bind, exec_ofExcept, Insert.rowOf]
  cases extractParams envelope with
  | error e => simp [Except.isOk, Except.toBool]
  | ok params =>
    dsimp only
    cases statement.row params with
    | none => simp [Except.isOk, Except.toBool]
    | some r => simp [exec_perform_isOk]

omit [Runtime] [Postgres] in
theorem exec_getConnection_isOk (body : Program PyError Storage Unit) (s : Storage) :
    (exec (getConnection db body) s).1.isOk =
      (db .connect == .returns && (exec body s.rollback).1.isOk) := by
  rw [getConnection, exec_bind, exec_perform]
  cases db .connect with
  | raises => rfl
  | unseen => rfl
  | returns =>
    simp only [exec_bind, exec_modify, exec_tryCatch]
    rcases exec body s.rollback with ⟨e | a, t⟩ <;> rfl

omit [Postgres] in
theorem writeToDb_returns {calls : DbCall → Bool} {envelope : Dict Json}
    (h : ∀ e, extractParams envelope = .error e → calls .insert = false) :
    (writeToDb calls envelope).2 =
      !(calls .connect && (calls .insert && (calls .upsert && calls .commit))) := by
  unfold writeToDb
  cases hparams : extractParams envelope with
  | error e =>
    have hinsert := h e hparams
    cases calls .connect <;> simp [hinsert]
  | ok params => cases calls .connect <;> cases calls .insert <;> cases calls .upsert <;> simp

/-- The write raises where `writeToDb` has a call that raises. -/
theorem exec_write_isOk (envelope : Dict Json) (s : Storage) :
    (exec (write db envelope) s).1.isOk = !(writeToDb (callsFor db envelope) envelope).2 := by
  have hcommit : ∀ s, (exec (commit db) s).1.isOk = (db .commit == .returns) := by
    intro s
    rw [commit, exec_perform_isOk]
  have hinsert : ∀ e, extractParams envelope = .error e → callsFor db envelope .insert = false := by
    intro e he
    simp [callsFor, Insert.rowOf, he]
  rw [write, exec_getConnection_isOk, persistEnvelope, insertPositionEvent, upsertCurrentPosition,
    exec_bind_isOk, exec_bind_isOk, exec_executeWith_isOk, exec_executeWith_isOk, hcommit,
    writeToDb_returns hinsert, Bool.not_not]
  rfl

variable [DecidableEq ι] (extractFromHeaders : Headers → Context) (subscribers : List ι)

/-- What the summary of a message says of the state before and after. -/
def Counted (handled : Handled) (w : World ι Context) (after : Disposition × World ι Context) :
    Prop :=
  after.1 = handled.disposition ∧ after.2.published = w.published ++ handled.broadcasts ∧
    after.2.processed = w.processed + handled.processed ∧
    after.2.failed = w.failed ++ handled.failed

/-- The program does what the summary says. -/
theorem embedded_handled (headers : Headers) (body : Bytes) (w : World ι Context) :
    Counted (onMessage (callsOf db body) body) w
      (process (Embedded.onMessage db extractFromHeaders subscribers headers body) w) := by
  rw [Embedded.onMessage_eq]
  cases hexamine : examine body with
  | malformed => simp [Counted, process, onMessage, hexamine, exec_bind, logger, countFailed]
  | missingTagId => simp [Counted, process, onMessage, hexamine, exec_bind, logger, countFailed]
  | raises e => simp [Counted, process, onMessage, hexamine]
  | accepted envelope payload =>
    have hwrite := exec_write_isOk db envelope w.storage
    rcases hrun : exec (write db envelope) w.storage with ⟨e | a, t⟩ <;>
      simp only [hrun, Except.isOk, Except.toBool] at hwrite
    · have hraised : (writeToDb (callsFor db envelope) envelope).2 = true := by
        simpa using hwrite.symm
      simp [Counted, process, onMessage, callsOf, hexamine, hraised, attach, startAsCurrentSpan,
        runInExecutor, logger, countFailed, detach, exec_bind, exec_tryFinally, exec_tryCatch,
        exec_zoom, hrun]
    · have hraised : (writeToDb (callsFor db envelope) envelope).2 = false := by
        simpa using hwrite.symm
      simp [Counted, process, onMessage, callsOf, hexamine, hraised, attach, startAsCurrentSpan,
        runInExecutor, observeLatency, countProcessed, publish, detach, exec_bind,
        exec_tryFinally, exec_tryCatch, exec_zoom, hrun]

end RtlsStream.Consumer
