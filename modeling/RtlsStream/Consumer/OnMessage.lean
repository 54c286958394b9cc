/-
  Consumer/OnMessage.lean --- `_on_message` of `backend/app.py`.

  The handler runs inside `message.process(requeue=True)`: a normal return acks the
  message, an exception rejects it with requeue.  It catches the exceptions it
  expects of `json.loads` and of the database; everything else takes the requeue
  path as well.  The calls to tracing, metrics and logging return normally.

  THE TWO SLIPS.  `envelope.get` is called before anything checks that the decoded
  value is an object, and `_extract_params` raises `KeyError` inside the block that
  is meant for database failures.  `requeue_reserved_iff` says for which bodies the
  handler does what its counters and its drop paths are there for.
-/
import RtlsStream.Python.Printable
import RtlsStream.Store.Params

set_option autoImplicit false

namespace RtlsStream.Consumer

open RtlsStream.Python RtlsStream.Store

/-! ## What the handler makes of a body -/

/-- The outcome of the checks before the database is called. -/
inductive Admission where
  /-- `json.JSONDecodeError` or `UnicodeDecodeError` -/
  | malformed
  /-- the payload is no object or has no `tag_id` -/
  | missingTagId
  /-- an exception nobody catches -/
  | raises (e : PyError)
  | accepted (envelope payload : Dict Json)

/-- `_on_message` up to the tracing calls. -/
def examine [Runtime] (body : Bytes) : Admission :=
  match loadsBytes body with
  | .error (.jsonDecodeError _ _) | .error .unicodeDecodeError => .malformed
  | .error e => .raises e
  | .ok (.obj envelope) =>
    match Dict.get? envelope (text "payload") with
    | some (.obj payload) =>
      if Dict.contains payload (text "tag_id") then .accepted envelope payload else .missingTagId
    | _ => .missingTagId
  | .ok _ => .raises (.attributeError (text "get"))

/-! ## The database calls -/

/-- The calls of `_write_to_db` to the pool and the server. -/
inductive DbCall where
  | connect | insert | upsert | commit
  deriving DecidableEq, Repr

/-- The call writes. -/
def DbCall.writes : DbCall → Bool
  | .connect => false
  | .insert | .upsert | .commit => true

/-- `_write_to_db`: the calls it makes and whether it raises.  `db` says which calls
return normally. -/
def writeToDb [Runtime] (db : DbCall → Bool) (envelope : Dict Json) : List DbCall × Bool :=
  if db .connect then
    match extractParams envelope with
    | .error _ => ([.connect], true)
    | .ok _ =>
      if db .insert then
        match extractParams envelope with
        | .error _ => ([.connect, .insert], true)
        | .ok _ =>
          if db .upsert then ([.connect, .insert, .upsert, .commit], !db .commit)
          else ([.connect, .insert, .upsert], true)
      else ([.connect, .insert], true)
  else ([.connect], true)

/-! ## The handler -/

/-- What the broker sees. -/
inductive Disposition where
  | ack | requeue
  deriving DecidableEq, Repr

/-- The labels of the `failed` counter. -/
inductive Reason where
  | malformedJson | missingTagId | dbError
  deriving DecidableEq, Repr

/-- Everything one delivery does. -/
structure Handled where
  disposition : Disposition
  dbCalls : List DbCall
  broadcasts : List (Dict Json)
  processed : Nat
  failed : List Reason

/-- `_on_message` -/
def onMessage [Runtime] (db : DbCall → Bool) (body : Bytes) : Handled :=
  match examine body with
  | .malformed => ⟨.ack, [], [], 0, [.malformedJson]⟩
  | .missingTagId => ⟨.ack, [], [], 0, [.missingTagId]⟩
  | .raises _ => ⟨.requeue, [], [], 0, []⟩
  | .accepted envelope _ =>
    let (calls, raised) := writeToDb db envelope
    if raised then ⟨.requeue, calls, [], 0, [.dbError]⟩
    else ⟨.ack, calls, [envelope], 1, []⟩

/-! ## Requeue for database failures only -/

variable [Runtime]

/-- The body is an object with every key `_extract_params` subscripts, and its payload
is an object with `tag_id` and `ts_utc_ms`. -/
def WellFormed (body : Bytes) : Prop :=
  ∃ envelope payload : Dict Json, loadsBytes body = .ok (.obj envelope) ∧
    envelope.get? (text "payload") = some (.obj payload) ∧
    (∀ key ∈ envelopeKeys, envelope.contains key) ∧ ∀ key ∈ payloadKeys, payload.contains key

/-- `json.loads` raises one of the two errors the handler expects of it. -/
def Undecodable (body : Bytes) : Prop :=
  (∃ msg pos, loadsBytes body = .error (.jsonDecodeError msg pos)) ∨
    loadsBytes body = .error .unicodeDecodeError

/-- The body is an object whose payload is missing, no object, or without `tag_id`. -/
def Untagged (body : Bytes) : Prop :=
  ∃ envelope : Dict Json, loadsBytes body = .ok (.obj envelope) ∧
    ∀ payload : Dict Json, envelope.get? (text "payload") = some (.obj payload) →
      ¬ payload.contains (text "tag_id")

/-- What the drop paths and the counters are for: a requeue means that a database call
on a well-formed envelope failed, any other body is dropped, and one counter
moves by one. -/
def RequeueReserved (db : DbCall → Bool) (body : Bytes) : Prop :=
  let h := onMessage db body
  (h.disposition = .requeue → WellFormed body ∧ ∃ c ∈ h.dbCalls, db c = false) ∧
    (¬ WellFormed body →
      h.disposition = .ack ∧ (∀ c ∈ h.dbCalls, c.writes = false) ∧ h.broadcasts = []) ∧
    h.processed + h.failed.length = 1

theorem examine_of_undecodable {body : Bytes} (h : Undecodable body) : examine body = .malformed := by
  unfold examine
  rcases h with ⟨msg, pos, h⟩ | h <;> rw [h]

theorem examine_of_untagged {body : Bytes} (h : Untagged body) : examine body = .missingTagId := by
  obtain ⟨envelope, hbody, htag⟩ := h
  unfold examine
  rw [hbody]
  cases hpayload : envelope.get? (text "payload") with
  | none => simp [hpayload]
  | some v =>
    cases v with
    | obj payload => simp [hpayload, htag payload hpayload]
    | _ => simp [hpayload]

/-- The handler's checks sort the bodies: two kinds are dropped, two raise, and an
accepted one has a payload with `tag_id`. -/
theorem examine_cases (body : Bytes) :
    Undecodable body ∨ Untagged body ∨ (∃ e, examine body = .raises e) ∨
      ∃ envelope payload : Dict Json, examine body = .accepted envelope payload ∧
        loadsBytes body = .ok (.obj envelope) ∧
        envelope.get? (text "payload") = some (.obj payload) ∧
        payload.contains (text "tag_id") := by
  cases hbody : loadsBytes body with
  | error e =>
    cases e with
    | jsonDecodeError msg pos => exact Or.inl (Or.inl ⟨msg, pos, hbody⟩)
    | unicodeDecodeError => exact Or.inl (Or.inr hbody)
    | _ => exact Or.inr (Or.inr (Or.inl ⟨_, by simp [examine, hbody]; rfl⟩))
  | ok v =>
    cases v with
    | obj envelope =>
      by_cases huntagged : Untagged body
      · exact Or.inr (Or.inl huntagged)
      · have htag : ∃ payload : Dict Json, Dict.get? envelope (text "payload") = some (.obj payload) ∧
            payload.contains (text "tag_id") := by
          by_contra hnone
          refine huntagged ⟨envelope, hbody, ?_⟩
          intro payload hpayload htag
          exact hnone ⟨payload, hpayload, htag⟩
        obtain ⟨payload, hpayload, htag⟩ := htag
        exact Or.inr (Or.inr (Or.inr ⟨envelope, payload, by simp [examine, hbody, hpayload, htag],
          rfl, hpayload, htag⟩))
    | _ => exact Or.inr (Or.inr (Or.inl ⟨_, by simp [examine, hbody]; rfl⟩))

/-- Extraction succeeds on an admitted envelope exactly when the body is well formed:
whatever `json.loads` read as warnings, `json.dumps` can write. -/
theorem wellFormed_iff_extract {body : Bytes} {envelope payload : Dict Json}
    (hbody : loadsBytes body = .ok (.obj envelope))
    (hpayload : envelope.get? (text "payload") = some (.obj payload)) :
    WellFormed body ↔ ∃ p, extractParams envelope = .ok p := by
  have hwarnings : ∃ t, dumps ascii (getD payload "parse_warnings" (.arr [])) = .ok t := by
    cases hget : payload.get? (text "parse_warnings") with
    | none =>
      simp only [getD, hget, Option.getD_none]
      exact (dumpable_arr.mpr (by simp) : Dumpable ascii (0 + 1) (.arr [])).mono
        (by have := Runtime.jsonDepth_ge; omega)
    | some v =>
      simp only [getD, hget, Option.getD_some]
      exact ((dumpable_of_loadsBytes hbody).get? hpayload).get? hget
  rw [extractParams_ok_iff hpayload hwarnings]
  constructor
  · rintro ⟨envelope', payload', hbody', hpayload', hkeys⟩
    have henvelope : envelope' = envelope := by
      injection hbody'.symm.trans hbody with h
      injection h
    subst henvelope
    have hsame : payload' = payload := by
      injection hpayload'.symm.trans hpayload with h
      injection h
    subst hsame
    exact hkeys
  · intro hkeys
    exact ⟨envelope, payload, hbody, hpayload, hkeys⟩

/-- Where the extraction succeeds, only a database call can make the write raise. -/
theorem writeToDb_raises {db : DbCall → Bool} {envelope : Dict Json} {p : Params}
    (hp : extractParams envelope = .ok p) (hraised : (writeToDb db envelope).2 = true) :
    ∃ c ∈ (writeToDb db envelope).1, db c = false := by
  unfold writeToDb at hraised ⊢
  cases hconnect : db .connect <;> cases hinsert : db .insert <;> cases hupsert : db .upsert <;>
    cases hcommit : db .commit <;> simp_all

/-- Where the extraction fails, the write raises, whatever the database does. -/
theorem writeToDb_of_extract_error {db : DbCall → Bool} {envelope : Dict Json} {e : PyError}
    (hp : extractParams envelope = .error e) : (writeToDb db envelope).2 = true := by
  unfold writeToDb
  cases db .connect <;> simp [hp]

/-- The handler keeps requeue for database failures, drops every other body and moves
one counter exactly when the body is one that `json.loads` rejects in one of the two
expected ways, an object without a tagged payload, or a well-formed envelope. -/
theorem requeue_reserved_iff (db : DbCall → Bool) (body : Bytes) :
    RequeueReserved db body ↔ Undecodable body ∨ Untagged body ∨ WellFormed body := by
  constructor
  · intro h
    obtain ⟨hrequeue, -, -⟩ := h
    rcases examine_cases body with hbad | huntagged | ⟨e, hraises⟩ |
      ⟨envelope, payload, hexamine, hbody, hpayload, -⟩
    · exact Or.inl hbad
    · exact Or.inr (Or.inl huntagged)
    · exact Or.inr (Or.inr (hrequeue (by simp [onMessage, hraises])).1)
    · right
      right
      cases hp : extractParams envelope with
      | ok p => exact (wellFormed_iff_extract hbody hpayload).mpr ⟨p, hp⟩
      | error e =>
        have hraised : (writeToDb db envelope).2 = true := writeToDb_of_extract_error hp
        exact (hrequeue (by simp [onMessage, hexamine, hraised])).1
  · rintro (hbad | huntagged | hwell)
    · have hexamine := examine_of_undecodable hbad
      simp [RequeueReserved, onMessage, hexamine]
    · have hexamine := examine_of_untagged huntagged
      simp [RequeueReserved, onMessage, hexamine]
    · obtain ⟨envelope, payload, hbody, hpayload, hkeys⟩ := id hwell
      have htag : payload.contains (text "tag_id") := hkeys.2 _ (by simp [payloadKeys])
      have hexamine : examine body = .accepted envelope payload := by
        simp [examine, hbody, hpayload, htag]
      obtain ⟨p, hp⟩ := (wellFormed_iff_extract hbody hpayload).mp hwell
      cases hraised : (writeToDb db envelope).2 with
      | false => simp [RequeueReserved, onMessage, hexamine, hraised, hwell]
      | true =>
        obtain ⟨c, hc, hfails⟩ := writeToDb_raises hp hraised
        simp only [RequeueReserved, onMessage, hexamine, hraised, if_true]
        exact ⟨fun _ => ⟨hwell, c, hc, hfails⟩, fun hnot => absurd hwell hnot, rfl⟩

omit [Runtime] in
/-- The body `[]` is requeued although the database never fails, and no counter moves. -/
theorem requeue_not_reserved_array :
    (@onMessage asciiRuntime (fun _ => true) [0x5b, 0x5d]).disposition = .requeue ∧
      ¬ @RequeueReserved asciiRuntime (fun _ => true) [0x5b, 0x5d] := by
  refine ⟨by decide +kernel, ?_⟩
  intro h
  have hcounters := h.2.2
  revert hcounters
  decide +kernel

end RtlsStream.Consumer
