/-
  Consumer/Interchange.lean --- the two handlers do the same to the database.

  Without its instrumentation the standalone handler is `stored`, the write of an envelope
  that passes the checks, and the embedded one is `announced`, the same with a `publish`
  behind it.  A `publish` returns, so the two decide alike, and it is reached exactly when
  the write has returned.  Then it has committed; but a commit may take effect and still
  raise, and of that one nobody is told (`committed_unpublished`).
-/
import RtlsStream.Consumer.Delivery
import RtlsStream.Consumer.Handlers

set_option autoImplicit false

namespace RtlsStream.Consumer

open RtlsStream.Foundation RtlsStream.Foundation.Program RtlsStream.Python RtlsStream.Store
open RtlsStream.Live (Broadcast.Queue Broadcast.publishTo)

variable {ι Context Headers : Type}

/-! ## Without the instrumentation -/

/-- What counts: the database, and what was published. -/
def World.effects (w : World ι Context) :
    Storage × (ι → Option (Broadcast.Queue (Dict Json))) × List (Dict Json) :=
  (w.storage, w.queues, w.published)

theorem silent_logger (line : String) :
    Silent World.effects (logger line : Handler ι Context Unit) :=
  .of_modify fun _ => rfl

theorem silent_countFailed (reason : Reason) :
    Silent World.effects (countFailed reason : Handler ι Context Unit) :=
  .of_modify fun _ => rfl

theorem silent_countProcessed : Silent World.effects (countProcessed : Handler ι Context Unit) :=
  .of_modify fun _ => rfl

theorem silent_observeLatency : Silent World.effects (observeLatency : Handler ι Context Unit) :=
  .of_modify fun _ => rfl

theorem silent_attach (context : Context) :
    Silent World.effects (attach context : Handler ι Context Context) :=
  fun w => ⟨⟨w.context, rfl⟩, rfl⟩

theorem silent_detach (token : Context) :
    Silent World.effects (detach token : Handler ι Context Unit) :=
  .of_modify fun _ => rfl

/-- A span around a program changes nothing that counts. -/
theorem agree_span {p q : Handler ι Context Unit} (name : String) (attributes : Dict Json)
    (h : Agree World.effects p q) :
    Agree World.effects (startAsCurrentSpan name attributes p) q :=
  .before (.of_modify fun _ => rfl) fun _ => h.around (.of_modify fun _ => rfl)

theorem agree_runInExecutor (p : Program PyError Storage Unit) :
    Agree World.effects (runInExecutor p : Handler ι Context Unit) (runInExecutor p) := by
  refine .zoom ?_ ?_ p
  · intro w w' h
    exact congrArg Prod.fst h
  · intro storage w w' h
    exact congrArg (fun seen => (storage, seen.2)) h

theorem agree_publish [DecidableEq ι] (subscribers : List ι) (envelope : Dict Json) :
    Agree World.effects (publish subscribers envelope : Handler ι Context Unit)
      (publish subscribers envelope) := by
  refine .of_modify fun w w' h => ?_
  exact congrArg (fun seen => (seen.1, Broadcast.publishTo seen.2.1 envelope subscribers,
    seen.2.2 ++ [envelope])) h

section Handlers

variable [Runtime] [Postgres] (db : DbCall → DbOutcome)

/-- The checks, and the write of an envelope that passes them. -/
def stored (body : Bytes) : Handler ι Context Unit :=
  match examine body with
  | .accepted envelope _ => runInExecutor (write db envelope)
  | .raises e => throw e
  | .malformed | .missingTagId => pure ()

/-- The same, with the envelope published behind the write. -/
def announced [DecidableEq ι] (subscribers : List ι) (body : Bytes) : Handler ι Context Unit :=
  match examine body with
  | .accepted envelope _ => do
    runInExecutor (write db envelope)
    publish subscribers envelope
  | .raises e => throw e
  | .malformed | .missingTagId => pure ()

theorem standalone_agrees (body : Bytes) :
    Agree World.effects (Standalone.onMessage db body : Handler ι Context Unit)
      (stored db body) := by
  have hdrop (line : String) :
      Agree World.effects (logger line : Handler ι Context Unit) (pure ()) :=
    .of_silent (silent_logger line) (.pure ())
  unfold Standalone.onMessage stored examine
  cases loadsBytes body with
  | error e =>
    cases e with
    | jsonDecodeError _ _ => exact hdrop _
    | unicodeDecodeError => exact hdrop _
    | _ => exact .throw _
  | ok v =>
    cases v with
    | obj envelope =>
      dsimp only
      cases Dict.get? envelope (text "payload") with
      | none => exact hdrop _
      | some v =>
        cases v with
        | obj payload =>
          dsimp only
          cases Dict.contains payload (text "tag_id") with
          | false => exact hdrop _
          | true =>
            exact (agree_runInExecutor (write db envelope)).reraise fun e =>
              .before (silent_logger _) fun _ => .throw e
        | _ => exact hdrop _
    | _ => exact .throw _

theorem embedded_agrees [DecidableEq ι] (extractFromHeaders : Headers → Context)
    (subscribers : List ι) (headers : Headers) (body : Bytes) :
    Agree World.effects (Embedded.onMessage db extractFromHeaders subscribers headers body)
      (announced db subscribers body) := by
  have hdrop (line : String) (reason : Reason) :
      Agree World.effects (do logger line; countFailed reason : Handler ι Context Unit) (pure ()) :=
    .of_silent ((silent_logger line).bind fun _ => silent_countFailed reason) (.pure ())
  rw [Embedded.onMessage_eq, announced]
  cases examine body with
  | malformed => exact hdrop _ _
  | missingTagId => exact hdrop _ _
  | raises e => exact .throw e
  | accepted envelope payload =>
    have hwrite : Agree World.effects
        (startAsCurrentSpan "db_write" [] do
          runInExecutor (write db envelope)
          observeLatency : Handler ι Context Unit) (runInExecutor (write db envelope)) :=
      agree_span _ _ ((agree_runInExecutor _).after silent_observeLatency)
    have hpublish : Agree World.effects
        (startAsCurrentSpan "broadcast" [] (publish subscribers envelope) :
          Handler ι Context Unit) (publish subscribers envelope) :=
      agree_span _ _ (agree_publish subscribers envelope)
    refine .before (silent_attach _) fun token => .around ?_ (silent_detach token)
    refine agree_span _ _ (.bind ?_ fun _ => hpublish.after silent_countProcessed)
    exact hwrite.reraise fun e => .before (silent_logger _) fun _ =>
      .before (silent_countFailed _) fun _ => .throw e

/-! ## What is left of both -/

omit [Postgres] in
theorem loadsBytes_of_accepted {body : Bytes} {envelope payload : Dict Json}
    (h : examine body = .accepted envelope payload) : loadsBytes body = .ok (.obj envelope) := by
  rcases examine_cases body with hbad | huntagged | ⟨e, hraises⟩ | ⟨envelope', payload', hexamine, hbody, _⟩
  · simp [examine_of_undecodable hbad] at h
  · simp [examine_of_untagged huntagged] at h
  · simp [hraises] at h
  · rw [h, Admission.accepted.injEq] at hexamine
    rwa [hexamine.1]

omit [Runtime] [Postgres] in
/-- Programs that agree are decided on alike, and leave the same effects. -/
theorem process_of_agree {p q : Handler ι Context Unit} (h : Agree World.effects p q)
    (w : World ι Context) :
    (process p w).1 = (process q w).1 ∧ (process p w).2.effects = (process q w).2.effects := by
  obtain ⟨hresult, hstate⟩ := h w w rfl
  unfold process
  rcases hp : exec p w with ⟨e | a, s⟩ <;> rcases hq : exec q w with ⟨e' | b, t⟩ <;>
    simp_all

/-- The envelope is committed and published, and the message is acknowledged. -/
def Published (body : Bytes) (subscribers : List ι) [DecidableEq ι] (w : World ι Context)
    (after : Disposition × World ι Context) : Prop :=
  ∃ envelope, loadsBytes body = .ok (.obj envelope) ∧
    CommittedRow envelope w.storage after.2.storage ∧
    after.2.published = w.published ++ [envelope] ∧
    after.2.queues = Broadcast.publishTo w.queues envelope subscribers ∧ after.1 = .ack

/-- Nothing is published. -/
def Unpublished (w w' : World ι Context) : Prop :=
  w'.published = w.published ∧ w'.queues = w.queues

/-- The commit took effect before it raised, and the message goes back to the queue. -/
def CommittedUnseen (body : Bytes) (w : World ι Context)
    (after : Disposition × World ι Context) : Prop :=
  db .commit = .unseen ∧ after.1 = .requeue ∧
    ∃ envelope, loadsBytes body = .ok (.obj envelope) ∧
      CommittedRow envelope w.storage after.2.storage

/-- Published with the commit, or not published; then nothing is committed either, unless the
commit took effect unseen. -/
def Announces (body : Bytes) (subscribers : List ι) [DecidableEq ι] (w : World ι Context)
    (after : Disposition × World ι Context) : Prop :=
  Published body subscribers w after ∨
    Unpublished w after.2 ∧
      (after.2.storage.tables = w.storage.tables ∨ CommittedUnseen db body w after)

/-- `stored` in one process and `announced` in another, over one database. -/
theorem stored_announced {κ Context' : Type} [DecidableEq ι] (subscribers : List ι) (body : Bytes)
    (w : World ι Context) (v : World κ Context') (hstorage : v.storage = w.storage) :
    (process (stored db body) v).1 = (process (announced db subscribers body) w).1 ∧
      (process (stored db body) v).2.storage =
        (process (announced db subscribers body) w).2.storage ∧
      Announces db body subscribers w (process (announced db subscribers body) w) := by
  have hnothing : Unpublished w w := ⟨rfl, rfl⟩
  unfold process stored announced
  cases hexamine : examine body with
  | malformed => exact ⟨rfl, hstorage, .inr ⟨hnothing, .inl rfl⟩⟩
  | missingTagId => exact ⟨rfl, hstorage, .inr ⟨hnothing, .inl rfl⟩⟩
  | raises e => exact ⟨rfl, hstorage, .inr ⟨hnothing, .inl rfl⟩⟩
  | accepted envelope payload =>
    have hbody := loadsBytes_of_accepted hexamine
    simp only [exec_bind, runInExecutor, exec_zoom, hstorage]
    rcases exec_write db envelope w.storage with ⟨t, hrun, hcommitted⟩ | ⟨e, t, hrun, ht⟩
    · simp only [hrun, publish, exec_modify, true_and]
      exact .inl ⟨envelope, hbody, hcommitted, rfl, rfl, rfl⟩
    · simp only [hrun, true_and]
      refine .inr ⟨⟨rfl, rfl⟩, ?_⟩
      rcases ht with hsame | ⟨hunseen, hcommitted⟩
      · exact .inl hsame
      · exact .inr ⟨hunseen, rfl, envelope, hbody, hcommitted⟩

/-- Over one database the handlers decide alike on every message and leave the same tables;
the embedded one publishes the envelope exactly when the write returns, and then it has
committed. -/
theorem handlers_interchangeable {κ Context' : Type} [DecidableEq ι]
    (extractFromHeaders : Headers → Context) (subscribers : List ι) (headers : Headers)
    (body : Bytes) (w : World ι Context) (other : World κ Context') :
    let standalone := process (Standalone.onMessage db body) { other with storage := w.storage }
    let embedded := process (Embedded.onMessage db extractFromHeaders subscribers headers body) w
    standalone.1 = embedded.1 ∧ standalone.2.storage.tables = embedded.2.storage.tables ∧
      Announces db body subscribers w embedded := by
  intro standalone embedded
  obtain ⟨hs, hseffects⟩ :=
    process_of_agree (standalone_agrees db body) { other with storage := w.storage }
  obtain ⟨he, heffects⟩ :=
    process_of_agree (embedded_agrees db extractFromHeaders subscribers headers body) w
  obtain ⟨hdecision, htables, hannounces⟩ := stored_announced db subscribers body w
    { other with storage := w.storage } rfl
  simp only [World.effects, Prod.mk.injEq] at hseffects heffects
  refine ⟨(hs.trans hdecision).trans he.symm, ?_, ?_⟩
  · exact congrArg Storage.tables ((hseffects.1.trans htables).trans heffects.1.symm)
  · simp only [Announces, Published, Unpublished, CommittedUnseen] at hannounces ⊢
    rwa [← he, ← heffects.1, ← heffects.2.1, ← heffects.2.2] at hannounces

end Handlers

/-! ## A commit without its reply -/

/-- The connection is lost after the commit took effect. -/
def lostReply : DbCall → DbOutcome
  | .commit => .unseen
  | _ => .returns

section Examples

attribute [local instance] asciiRuntime ownTypes

/-- The row is committed, the message goes back to the queue, and nothing is published. -/
theorem committed_unpublished :
    let w : World Unit Unit :=
      ⟨⟨.empty, none, 1⟩, fun _ => some ⟨256, []⟩, [], 0, [], 0, (), [], []⟩
    let after := process
      (Embedded.onMessage lostReply (fun _ : Unit => ()) [()] () Delivery.sampleBody) w
    after.2.storage.tables.events.length = 1 ∧ after.2.published = [] ∧ after.1 = .requeue := by
  decide +kernel

end Examples

end RtlsStream.Consumer
