/-
  Consumer/Handlers.lean --- the two handlers of `position_events` messages.

  `on_message` of `backend/consumer.py` and `_on_message` of `backend/app.py` are written
  out as programs, with their `try` blocks, spans, counters and log lines, over one
  `_write_to_db`.  The calls to tracing, metrics and logging return normally.  A database
  call returns, or raises without effect, or raises after it took effect; what is open then
  the pool rolls back.

  A write that returns has committed a whole envelope.  One that raises leaves the tables as
  they are, unless its commit took effect before it raised (`exec_write`).
-/
import RtlsStream.Consumer.OnMessage
import RtlsStream.Foundation.Effects
import RtlsStream.Live.Broadcast
import RtlsStream.Store.Tables

set_option autoImplicit false

namespace RtlsStream.Consumer

open RtlsStream.Foundation RtlsStream.Foundation.Program RtlsStream.Python RtlsStream.Store
open RtlsStream.Live (Broadcast.Queue Broadcast.publishTo)

/-! ## The database -/

/-- The tables, and the transaction of the connection. -/
structure Storage where
  tables : Database
  /-- what an open transaction sees -/
  draft : Option Database
  /-- the sequence behind `position_events.id` -/
  nextId : Nat

/-- An error of the driver, the pool or the server. -/
def databaseError : PyError := .external (text "database")

namespace Storage

/-- A statement, which opens a transaction unless one is open. -/
def statement (s : Storage) (f : Database → Database) : Storage :=
  { s with draft := some (f (s.draft.getD s.tables)) }

def insert (r : Row) (s : Storage) : Storage :=
  { s.statement fun d => { d with events := d.events ++ [⟨s.nextId, r⟩] } with
    nextId := s.nextId + 1 }

def upsert (r : Row) (s : Storage) : Storage :=
  s.statement fun d => { d with current := d.current.upsert r }

/-- A commit; there may be nothing to commit. -/
def commit (s : Storage) : Storage := { s with tables := s.draft.getD s.tables, draft := none }

def rollback (s : Storage) : Storage := { s with draft := none }

end Storage

/-- How a database call ends. -/
inductive DbOutcome where
  | returns
  | raises
  /-- it takes effect and then raises, as when the connection is lost before the reply -/
  | unseen
  deriving DecidableEq, Repr

section Database

variable [Runtime] [Postgres] (db : DbCall → DbOutcome)

omit [Runtime] [Postgres] in
/-- A call with its effect. -/
def perform (call : DbCall) (effect : Storage → Storage) : Program PyError Storage Unit :=
  match db call with
  | .returns => modify effect
  | .raises => throw databaseError
  | .unseen => do
    modify effect
    throw databaseError

/-- `cursor.execute` with the parameters of an envelope. -/
def executeWith (call : DbCall) (statement : Insert) (effect : Row → Storage → Storage)
    (envelope : Dict Json) : Program PyError Storage Unit := do
  let params ← MonadExcept.ofExcept (extractParams envelope)
  match statement.row params with
  | some r => perform db call (effect r)
  | none => throw databaseError

/-- `insert_position_event` -/
def insertPositionEvent : Dict Json → Program PyError Storage Unit :=
  executeWith db .insert Store.insertPositionEvent Storage.insert

/-- `upsert_current_position` -/
def upsertCurrentPosition : Dict Json → Program PyError Storage Unit :=
  executeWith db .upsert Store.upsertCurrentPosition Storage.upsert

omit [Runtime] [Postgres] in
/-- `connection.commit()` -/
def commit : Program PyError Storage Unit := perform db .commit Storage.commit

/-- `persist_envelope` -/
def persistEnvelope (envelope : Dict Json) : Program PyError Storage Unit := do
  insertPositionEvent db envelope
  upsertCurrentPosition db envelope
  commit db

omit [Runtime] [Postgres] in
/-- `get_connection`: the connection comes without a transaction; when it is given back,
what is open is committed, or rolled back after an exception. -/
def getConnection (body : Program PyError Storage Unit) : Program PyError Storage Unit := do
  perform db .connect Storage.rollback
  tryCatch (do body; modify Storage.commit) fun e => do
    modify Storage.rollback
    throw e

/-- `_write_to_db` -/
def write (envelope : Dict Json) : Program PyError Storage Unit :=
  getConnection db (persistEnvelope db envelope)

omit [Runtime] [Postgres] in
theorem exec_perform (call : DbCall) (effect : Storage → Storage) (s : Storage) :
    exec (perform db call effect) s =
      match db call with
      | .returns => (.ok (), effect s)
      | .raises => (.error databaseError, s)
      | .unseen => (.error databaseError, effect s) := by
  unfold perform
  cases db call <;> rfl

/-- A statement runs with the row of the envelope, or raises; then it has done nothing, or it
has run and nobody knows. -/
theorem exec_executeWith (call : DbCall) (statement : Insert)
    (effect : Row → Storage → Storage) (envelope : Dict Json) (s : Storage) :
    (∃ r, statement.rowOf envelope = some r ∧
      exec (executeWith db call statement effect envelope) s = (.ok (), effect r s)) ∨
    ∃ e t, exec (executeWith db call statement effect envelope) s = (.error e, t) ∧
      (t = s ∨ ∃ r, t = effect r s) := by
  simp only [executeWith, exec_bind, exec_ofExcept, Insert.rowOf]
  cases extractParams envelope with
  | error e => exact .inr ⟨e, s, rfl, .inl rfl⟩
  | ok params =>
    dsimp only
    cases statement.row params with
    | none => exact .inr ⟨databaseError, s, rfl, .inl rfl⟩
    | some r =>
      dsimp only
      rw [exec_perform]
      cases db call with
      | returns => exact .inl ⟨r, rfl, rfl⟩
      | raises => exact .inr ⟨databaseError, s, rfl, .inl rfl⟩
      | unseen => exact .inr ⟨databaseError, effect r s, rfl, .inr ⟨r, rfl⟩⟩

/-- The tables after the row of the envelope is committed. -/
def CommittedRow (envelope : Dict Json) (s t : Storage) : Prop :=
  ∃ r, rowOf envelope = some r ∧ t.tables = s.tables.persist ⟨s.nextId, r⟩

/-- The statements and the commit: before the commit the tables are as they were, and a commit
that raises has taken effect or not. -/
theorem exec_persistEnvelope (envelope : Dict Json) (s : Storage) (hs : s.draft = none) :
    (∃ t, exec (persistEnvelope db envelope) s = (.ok (), t) ∧ t.draft = none ∧
      CommittedRow envelope s t) ∨
    ∃ e t, exec (persistEnvelope db envelope) s = (.error e, t) ∧
      (t.tables = s.tables ∨ db .commit = .unseen ∧ CommittedRow envelope s t) := by
  rw [persistEnvelope, exec_bind]
  rcases exec_executeWith db .insert Store.insertPositionEvent Storage.insert envelope s with
    ⟨r, hr, hinsert⟩ | ⟨e, t, hrun, ht⟩
  · rw [insertPositionEvent, hinsert]
    simp only [exec_bind]
    rcases exec_executeWith db .upsert Store.upsertCurrentPosition Storage.upsert envelope
        (s.insert r) with ⟨r', hr', hupsert⟩ | ⟨e, t, hrun, ht⟩
    · rw [upsertCurrentPosition, hupsert]
      obtain rfl : r = r' :=
        Option.some.inj (hr.symm.trans ((upsert_rowOf envelope).symm.trans hr'))
      have hcommitted : CommittedRow envelope s ((s.insert r).upsert r).commit := by
        refine ⟨r, hr, ?_⟩
        simp [Storage.commit, Storage.upsert, Storage.insert, Storage.statement,
          Database.persist, hs]
      simp only [commit, exec_perform]
      cases hcommit : db .commit with
      | returns => exact .inl ⟨_, rfl, rfl, hcommitted⟩
      | raises => exact .inr ⟨databaseError, (s.insert r).upsert r, rfl, .inl rfl⟩
      | unseen => exact .inr ⟨databaseError, _, rfl, .inr ⟨rfl, hcommitted⟩⟩
    · rw [upsertCurrentPosition, hrun]
      refine .inr ⟨e, t, rfl, .inl ?_⟩
      rcases ht with rfl | ⟨r', rfl⟩ <;> rfl
  · rw [insertPositionEvent, hrun]
    refine .inr ⟨e, t, rfl, .inl ?_⟩
    rcases ht with rfl | ⟨r', rfl⟩ <;> rfl

/-- A write that returns has committed the row of the envelope.  One that raises leaves the
tables as they are, unless the commit took effect unseen. -/
theorem exec_write (envelope : Dict Json) (s : Storage) :
    (∃ t, exec (write db envelope) s = (.ok (), t) ∧ CommittedRow envelope s t) ∨
    ∃ e t, exec (write db envelope) s = (.error e, t) ∧
      (t.tables = s.tables ∨ db .commit = .unseen ∧ CommittedRow envelope s t) := by
  rw [write, getConnection, exec_bind, exec_perform]
  cases db .connect with
  | raises => exact .inr ⟨databaseError, s, rfl, .inl rfl⟩
  | unseen => exact .inr ⟨databaseError, s.rollback, rfl, .inl rfl⟩
  | returns =>
    simp only [exec_bind, exec_modify, exec_tryCatch]
    rcases exec_persistEnvelope db envelope s.rollback rfl with
      ⟨t, hrun, hdraft, r, hr, ht⟩ | ⟨e, t, hrun, ht⟩
    · rw [hrun]
      refine .inl ⟨t.commit, rfl, r, hr, ?_⟩
      simpa [Storage.commit, Storage.rollback, hdraft] using ht
    · rw [hrun]
      exact .inr ⟨e, t.rollback, rfl, ht⟩

end Database

/-! ## The handlers -/

/-- A span begins or ends. -/
inductive SpanEvent where
  | started (name : Str) (attributes : Dict Json)
  | ended (name : Str)

/-- What a handler acts on: the database, the queues of the broadcast, and what is recorded
of its work. -/
structure World (ι Context : Type) where
  storage : Storage
  queues : ι → Option (Broadcast.Queue (Dict Json))
  published : List (Dict Json)
  /-- `CONSUMER_MESSAGES_PROCESSED` and `CONSUMER_MESSAGES_FAILED` -/
  processed : Nat
  failed : List Reason
  /-- the observations of `DB_WRITE_LATENCY` -/
  observed : Nat
  context : Context
  spans : List SpanEvent
  log : List Str

variable {ι Context Headers : Type}

/-- The programs of the handlers. -/
abbrev Handler (ι Context α : Type) : Type := Program PyError (World ι Context) α

/-- `loop.run_in_executor` -/
def runInExecutor (p : Program PyError Storage Unit) : Handler ι Context Unit :=
  zoom World.storage (fun storage w => { w with storage := storage }) p

/-- `logger.error` and `logger.exception`, by the text of the call. -/
def logger (line : String) : Handler ι Context Unit :=
  modify fun w => { w with log := w.log ++ [text line] }

/-- `CONSUMER_MESSAGES_FAILED.labels(...).inc()` -/
def countFailed (reason : Reason) : Handler ι Context Unit :=
  modify fun w => { w with failed := w.failed ++ [reason] }

/-- `CONSUMER_MESSAGES_PROCESSED.inc()` -/
def countProcessed : Handler ι Context Unit :=
  modify fun w => { w with processed := w.processed + 1 }

/-- `DB_WRITE_LATENCY.observe` -/
def observeLatency : Handler ι Context Unit :=
  modify fun w => { w with observed := w.observed + 1 }

/-- `otel_context.attach`, which returns the context it takes the place of. -/
def attach (context : Context) : Handler ι Context Context := do
  let w ← get
  modify fun w => { w with context := context }
  pure w.context

/-- `otel_context.detach` -/
def detach (token : Context) : Handler ι Context Unit :=
  modify fun w => { w with context := token }

/-- `with _tracer.start_as_current_span(...)` -/
def startAsCurrentSpan (name : String) (attributes : Dict Json) (body : Handler ι Context Unit) :
    Handler ι Context Unit := do
  modify fun w => { w with spans := w.spans ++ [.started (text name) attributes] }
  tryFinally body
    (modify fun w => { w with spans := w.spans ++ [.ended (text name)] } : Handler ι Context Unit)

/-- `message.process(requeue=True)` -/
def process (p : Handler ι Context Unit) (w : World ι Context) : Disposition × World ι Context :=
  match exec p w with
  | (.ok _, w) => (.ack, w)
  | (.error _, w) => (.requeue, w)

/-- `Broadcast.publish`, over the subscribers in the order of the set. -/
def publish [DecidableEq ι] (subscribers : List ι) (envelope : Dict Json) :
    Handler ι Context Unit :=
  modify fun w => { w with
    queues := Broadcast.publishTo w.queues envelope subscribers
    published := w.published ++ [envelope] }

variable [Runtime] [Postgres] (db : DbCall → DbOutcome)

namespace Standalone

/-- `on_message` of `backend/consumer.py`, inside `message.process`. -/
def onMessage (body : Bytes) : Handler ι Context Unit :=
  match loadsBytes body with
  | .error (.jsonDecodeError _ _) | .error .unicodeDecodeError =>
    logger "Malformed message, dropping: %s"
  | .error e => throw e
  | .ok (.obj envelope) =>
    match Dict.get? envelope (text "payload") with
    | some (.obj payload) =>
      if Dict.contains payload (text "tag_id") then
        tryCatch (runInExecutor (write db envelope)) fun e => do
          logger "DB write failed for tag_id=%s"
          throw e
      else logger "Envelope missing payload.tag_id, dropping"
    | _ => logger "Envelope missing payload.tag_id, dropping"
  -- `envelope.get`
  | .ok _ => throw (.attributeError (text "get"))

end Standalone

namespace Embedded

variable [DecidableEq ι] (extractFromHeaders : Headers → Context) (subscribers : List ι)

/-- `_on_message` of `backend/app.py`, inside `message.process`. -/
def onMessage (headers : Headers) (body : Bytes) : Handler ι Context Unit :=
  match loadsBytes body with
  | .error (.jsonDecodeError _ _) | .error .unicodeDecodeError => do
    logger "Malformed message, dropping: %s"
    countFailed .malformedJson
  | .error e => throw e
  | .ok (.obj envelope) =>
    match Dict.get? envelope (text "payload") with
    | some (.obj payload) =>
      if Dict.contains payload (text "tag_id") then do
        let token ← attach (extractFromHeaders headers)
        tryFinally
          (startAsCurrentSpan "consume_message"
            [(text "tag.id", getD payload "tag_id" (.str []))] do
              tryCatch
                (startAsCurrentSpan "db_write" [] do
                  runInExecutor (write db envelope)
                  observeLatency)
                fun e => do
                  logger "DB write failed for tag_id=%s"
                  countFailed .dbError
                  throw e
              startAsCurrentSpan "broadcast" [] (publish subscribers envelope)
              countProcessed)
          (detach token)
      else do
        logger "Envelope missing payload.tag_id, dropping"
        countFailed .missingTagId
    | _ => do
      logger "Envelope missing payload.tag_id, dropping"
      countFailed .missingTagId
  -- `envelope.get`
  | .ok _ => throw (.attributeError (text "get"))

/-- The handler by the outcome of the checks. -/
theorem onMessage_eq (headers : Headers) (body : Bytes) :
    onMessage db extractFromHeaders subscribers headers body =
      match examine body with
      | .accepted envelope payload => do
        let token ← attach (extractFromHeaders headers)
        tryFinally
          (startAsCurrentSpan "consume_message"
            [(text "tag.id", getD payload "tag_id" (.str []))] do
              tryCatch
                (startAsCurrentSpan "db_write" [] do
                  runInExecutor (write db envelope)
                  observeLatency)
                fun e => do
                  logger "DB write failed for tag_id=%s"
                  countFailed .dbError
                  throw e
              startAsCurrentSpan "broadcast" [] (publish subscribers envelope)
              countProcessed)
          (detach token)
      | .malformed => do
        logger "Malformed message, dropping: %s"
        countFailed .malformedJson
      | .missingTagId => do
        logger "Envelope missing payload.tag_id, dropping"
        countFailed .missingTagId
      | .raises e => throw e := by
  unfold onMessage examine
  cases loadsBytes body with
  | error e => cases e <;> rfl
  | ok v =>
    cases v with
    | obj envelope =>
      dsimp only
      cases Dict.get? envelope (text "payload") with
      | none => rfl
      | some v =>
        cases v with
        | obj payload => cases htag : Dict.contains payload (text "tag_id") <;> simp [htag]
        | _ => rfl
    | _ => rfl

end Embedded

end RtlsStream.Consumer
