/-
  Receiver/Serve.lean --- `serve_forever`.

  The loop runs in a world it shares with the tracing library, the publisher and
  the error callback: each of their calls may read and change it, and a later
  datagram finds what an earlier one left there.  What the loop itself keeps from
  one datagram to the next is nothing.

  `serveForever_outcomes` says what follows: the calls of a run are those of its
  datagrams, one after the other, and each datagram causes one of three sequences of
  calls (`Outcome`).  What it publishes is `prepare`, which reads the datagram, its
  address and the clock, and no world.
-/
import RtlsStream.Receiver.UdpServer

set_option autoImplicit false

namespace RtlsStream.Receiver

open RtlsStream.Foundation RtlsStream.Python RtlsStream.StreamHandler

/-! ## The world -/

/-- The calls of a run that the outside sees. -/
inductive Call where
  | publish (topic : Str) (message : Bytes) (headers : Headers) (result : Except PyError Unit)
  | onDecodeError (data : Bytes) (exc : PyError)

/-- The tracing library.  All its calls return. -/
structure Tracing (σ : Type) where
  /-- extract and attach the context of the datagram, and start the span -/
  start : Option (Dict Json) → Str → UInt16 → σ → σ
  /-- what `inject_into_headers` sets -/
  inject : σ → Headers
  /-- the propagator sets trace headers only -/
  inject_keys : ∀ s, ∀ h ∈ inject s, h.1 ∈ traceKeys
  /-- end the span and detach the context -/
  finish : σ → σ

/-- A publisher that may raise, and the callback for a datagram that was not published. -/
structure Outside (σ : Type) where
  tracing : Tracing σ
  publish : Str → Bytes → Headers → σ → Except PyError Unit × σ
  onDecodeError : Bytes → PyError → σ → σ

/-- The world, and the calls so far. -/
structure World (σ : Type) where
  inner : σ
  calls : List Call

variable {σ : Type}

/-- `inject_into_headers` -/
def injectIntoHeaders (injected headers : Headers) : Headers :=
  injected.foldl (fun acc h => acc.set h.1 h.2) headers

variable [Runtime]

/-! ## The loop -/

omit [Runtime] in
/-- `_handle_processing_error` -/
def handleProcessingError (out : Outside σ) (data : Bytes) (exc : PyError) (w : World σ) :
    World σ where
  inner := out.onDecodeError data exc w.inner
  calls := w.calls ++ [.onDecodeError data exc]

/-- The body of the loop for a datagram that was received. -/
def handle (server : UdpServer) (out : Outside σ) (w : World σ) (d : Datagram) : World σ :=
  let started := out.tracing.start (extractTraceContext d.data) d.ip d.port w.inner
  match server.envelopeOf d with
  | .error exc => handleProcessingError out d.data exc { w with inner := out.tracing.finish started }
  | .ok (envelope, headers) =>
    let headers := injectIntoHeaders (out.tracing.inject started) headers
    match UdpServer.serializeMessage envelope with
    | .error exc =>
      handleProcessingError out d.data exc { w with inner := out.tracing.finish started }
    | .ok message =>
      let (result, inner) := out.publish server.topic message headers started
      let w := ⟨out.tracing.finish inner,
        w.calls ++ [.publish server.topic message headers result]⟩
      match result with
      | .ok () => w
      | .error exc => handleProcessingError out d.data exc w

/-- What `recvfrom` does next. -/
inductive Received where
  | datagram (d : Datagram)
  | osError

/-- `serve_forever`: the loop ends when `recvfrom` raises. -/
def serveForever (server : UdpServer) (out : Outside σ) : List Received → World σ → World σ
  | [], w => w
  | .osError :: _, w => w
  | .datagram d :: rest, w => serveForever server out rest (handle server out w d)

omit [Runtime] in
/-- The datagrams received before `recvfrom` raises. -/
def datagrams : List Received → List Datagram
  | [] => []
  | .osError :: _ => []
  | .datagram d :: rest => d :: datagrams rest

/-! ## One datagram, one outcome -/

omit [Runtime] in
/-- The headers are those given, but for trace headers. -/
def AgreesOffTrace (headers base : Headers) : Prop :=
  ∀ key ∉ traceKeys, headers.get? key = base.get? key

/-- The calls one datagram causes: a publish that returns, or exactly one call of the
callback with its bytes, before which a publish may have raised. -/
inductive Outcome (server : UdpServer) (d : Datagram) : List Call → Prop
  | published {message : Bytes} {base headers : Headers} :
      server.prepare d = .ok (message, base) → AgreesOffTrace headers base →
      Outcome server d [.publish server.topic message headers (.ok ())]
  | rejected {exc : PyError} :
      server.prepare d = .error exc → Outcome server d [.onDecodeError d.data exc]
  | unpublished {message : Bytes} {base headers : Headers} {exc : PyError} :
      server.prepare d = .ok (message, base) → AgreesOffTrace headers base →
      Outcome server d
        [.publish server.topic message headers (.error exc), .onDecodeError d.data exc]

omit [Runtime] in
theorem agrees_injectIntoHeaders {injected : Headers} (h : ∀ i ∈ injected, i.1 ∈ traceKeys)
    (headers : Headers) : AgreesOffTrace (injectIntoHeaders injected headers) headers := by
  intro key hkey
  unfold injectIntoHeaders
  induction injected generalizing headers with
  | nil => rfl
  | cons i rest ih =>
    simp only [List.forall_mem_cons] at h
    have hne : i.1 ≠ key := fun heq => hkey (heq ▸ h.1)
    rw [List.foldl_cons, ih h.2, Dict.get?_set, if_neg hne]

/-- What the body of the loop does for one datagram. -/
theorem handle_outcome (server : UdpServer) (out : Outside σ) (w : World σ) (d : Datagram) :
    ∃ calls, (handle server out w d).calls = w.calls ++ calls ∧ Outcome server d calls := by
  unfold handle
  cases henvelope : server.envelopeOf d with
  | error exc =>
    have hprepare : server.prepare d = .error exc := by
      simp [UdpServer.prepare, henvelope, bind, Except.bind]
    exact ⟨_, rfl, .rejected hprepare⟩
  | ok r =>
    obtain ⟨envelope, base⟩ := r
    cases hmessage : UdpServer.serializeMessage envelope with
    | error exc =>
      have hprepare : server.prepare d = .error exc := by
        simp [UdpServer.prepare, henvelope, hmessage, bind, Except.bind]
      exact ⟨_, by simp [hmessage, handleProcessingError], .rejected hprepare⟩
    | ok message =>
      have hprepare : server.prepare d = .ok (message, base) := by
        simp [UdpServer.prepare, henvelope, hmessage, bind, Except.bind]
      simp only [hmessage]
      generalize out.tracing.start (extractTraceContext d.data) d.ip d.port w.inner = started
      have hagrees := agrees_injectIntoHeaders (out.tracing.inject_keys started) base
      cases hresult : (out.publish server.topic message
          (injectIntoHeaders (out.tracing.inject started) base) started).1 with
      | ok u => exact ⟨_, rfl, .published hprepare hagrees⟩
      | error exc =>
        refine ⟨_, ?_, @Outcome.unpublished _ _ _ _ _ _ exc hprepare hagrees⟩
        simp [handleProcessingError]

/-- The calls of a run are those of the datagrams received before `recvfrom` raises, in
the order of their arrival, and each datagram causes one outcome. -/
theorem serveForever_outcomes (server : UdpServer) (out : Outside σ) (incoming : List Received)
    (w : World σ) :
    ∃ calls : List (List Call),
      (serveForever server out incoming w).calls = w.calls ++ calls.flatten ∧
        List.Forall₂ (Outcome server) (datagrams incoming) calls := by
  induction incoming generalizing w with
  | nil => exact ⟨[], by simp [serveForever], .nil⟩
  | cons r rest ih =>
    cases r with
    | osError => exact ⟨[], by simp [serveForever], .nil⟩
    | datagram d =>
      obtain ⟨first, hfirst, houtcome⟩ := handle_outcome server out w d
      obtain ⟨calls, hcalls, hall⟩ := ih (handle server out w d)
      refine ⟨first :: calls, ?_, .cons houtcome hall⟩
      rw [serveForever, hcalls, hfirst, List.flatten_cons, List.append_assoc]

end RtlsStream.Receiver
