/-
  Generator/Send.lean --- `stream_generator/main.py` and `core/udp/client.py`.

  The generator gives every object a copy with the trace keys of its span, prints the
  copies compactly and sends them in batches.  The k-th call of `sendto` returns or raises
  as the outside decides.  Without spans, sleeps and log lines the program sends one object
  after the other (`main_agrees`), and what a run sends is then read off the first call
  that raises (`exec_transmit`, `exec_transmit_raises`).

  Batch sizes and delays are integers that `batched` and `sleep` can take: both raise an
  `OverflowError` for what does not fit the machine, which the model leaves out.
-/
import RtlsStream.Foundation.Effects
import RtlsStream.Generator.Lines
import RtlsStream.Receiver.UdpServer

set_option autoImplicit false

namespace RtlsStream.Generator

open RtlsStream.Foundation RtlsStream.Foundation.Program RtlsStream.Python RtlsStream.Receiver

/-! ## The code -/

/-- What the program acts on. -/
structure Network where
  /-- calls of `sendto` so far -/
  calls : Nat
  /-- the datagrams of the calls that returned -/
  sent : List Bytes
  closed : Bool
  /-- seconds slept -/
  slept : Int
  spans : List Str
  log : List Str

def Network.fresh : Network := ⟨0, [], false, 0, [], []⟩

/-- The calls to the outside. -/
structure Outside where
  /-- whether the k-th call of `sendto` returns -/
  sendto : Nat → Except PyError Unit
  /-- whether an exception is a `socket.error` -/
  isSocketError : PyError → Bool
  /-- what the k-th call of `inject_into_dict` sets -/
  inject : Nat → Dict Str

/-- `itertools.batched`, in a number of steps -/
def batchesIn {α : Type} (n : Nat) : Nat → List α → List (List α)
  | 0, _ => []
  | steps + 1, l => if l.isEmpty then [] else l.take n :: batchesIn n steps (l.drop n)

/-- `itertools.batched`, for an `n` of at least one -/
def batched {α : Type} (n : Nat) (l : List α) : List (List α) := batchesIn n l.length l

/-- What the propagator does to a carrier. -/
def setTrace (injected : Dict Str) (carrier : Dict Json) : Dict Json :=
  injected.foldl (fun d h => d.set h.1 (.str h.2)) carrier

/-- `inject_into_dict` -/
def injectIntoDict (injected : Dict Str) : Json → Except PyError Json
  | .obj members => .ok (.obj (setTrace injected members))
  | v => if injected = [] then .ok v else .error (.typeError (text "item assignment"))

/-- `_inject_trace_context`, from the `k`-th object on; a copy is the value itself. -/
def injectTraceContext (outside : Outside) : Nat → List Json → Except PyError (List Json)
  | _, [] => .ok []
  | k, obj :: rest => do
    let clone ← injectIntoDict (outside.inject k) obj
    let others ← injectTraceContext outside (k + 1) rest
    .ok (clone :: others)

/-- `logger.error` and `logger.info`, by the text of the call -/
def logger (line : String) : Program PyError Network Unit :=
  modify fun w => { w with log := w.log ++ [text line] }

/-- `self.socket.sendto` -/
def sendto (outside : Outside) (payload : Bytes) : Program PyError Network Unit := do
  let w ← get
  modify fun w => { w with calls := w.calls + 1 }
  MonadExcept.ofExcept (outside.sendto w.calls)
  modify fun w => { w with sent := w.sent ++ [payload] }

/-- `time.sleep` -/
def sleep (seconds : Int) : Program PyError Network Unit :=
  if seconds < 0 then throw (.valueError (text "sleep length must be non-negative"))
  else modify fun w => { w with slept := w.slept + seconds }

/-- `close` -/
def close : Program PyError Network Unit := do
  logger "Closing UDP socket"
  modify fun w => { w with closed := true }

/-- `with tracer.start_as_current_span(...)` -/
def startAsCurrentSpan (name : String) (body : Program PyError Network Unit) :
    Program PyError Network Unit := do
  modify fun w => { w with spans := w.spans ++ [text name] }
  tryFinally body
    (modify fun w => { w with spans := w.spans.dropLast } : Program PyError Network Unit)

variable [Runtime] (outside : Outside)

/-- The payload of an object. -/
def payloadOf (obj : Json) : Except PyError Bytes := do
  let s ← dumps compact obj
  match encodeUtf8 s with
  | some payload => .ok payload
  | none => .error .unicodeEncodeError

/-- One object of a batch. -/
def sendObject (obj : Json) : Program PyError Network Unit := do
  let payload ← MonadExcept.ofExcept (payloadOf obj)
  tryCatch (sendto outside payload) fun e =>
    if outside.isSocketError e then do
      logger "Error sending message: %s"
      throw e
    else throw e

/-- The objects of a batch. -/
def sendAll : List Json → Program PyError Network Unit
  | [] => pure ()
  | obj :: rest => do
    sendObject outside obj
    sendAll rest

/-- The loop over the batches. -/
def sendBatches (timeBetweenBatches : Int) : List (List Json) → Program PyError Network Unit
  | [] => pure ()
  | batch :: rest => do
    sendAll outside batch
    sleep timeBetweenBatches
    logger "Sent objects"
    sendBatches timeBetweenBatches rest

/-- `UdpClient.send` -/
def send (objects : List Json) (batchSize timeBetweenBatches : Int) :
    Program PyError Network Unit :=
  if batchSize < 1 then throw (.valueError (text "n must be at least one"))
  else sendBatches outside timeBetweenBatches (batched batchSize.toNat objects)

/-- `main` -/
def main (validator : Validator) (source : Bytes) (batchSize timeBetweenBatches : Int) :
    Program PyError Network Unit := do
  let (objects, errors) ← MonadExcept.ofExcept (getValidatedObjectsFromFile validator source)
  if errors = [] then pure () else logger "Validation errors: %s"
  let rawObjects := objects.map (·.data)
  logger "Creating UDP socket"
  tryFinally
    (startAsCurrentSpan "generate_stream" do
      let tracedObjects ← MonadExcept.ofExcept (injectTraceContext outside 0 rawObjects)
      send outside tracedObjects batchSize timeBetweenBatches)
    close
  logger "Stream generated successfully"

/-! ## Batches -/

omit [Runtime] in
theorem flatten_batchesIn {α : Type} {n : Nat} (hn : 1 ≤ n) {steps : Nat} {l : List α}
    (hsteps : l.length ≤ steps) : (batchesIn n steps l).flatten = l := by
  induction steps generalizing l with
  | zero => simp [batchesIn, List.length_eq_zero_iff.mp (Nat.le_zero.mp hsteps)]
  | succ steps ih =>
    cases l with
    | nil => simp [batchesIn]
    | cons a rest =>
      have hdrop : ((a :: rest).drop n).length ≤ steps := by
        simp only [List.length_drop, List.length_cons] at hsteps ⊢
        omega
      simp [batchesIn, ih hdrop]

omit [Runtime] in
/-- The batches hold the objects, each once and in order. -/
theorem flatten_batched {α : Type} {n : Nat} (hn : 1 ≤ n) (l : List α) :
    (batched n l).flatten = l :=
  flatten_batchesIn hn le_rfl

/-! ## Without the instrumentation -/

/-- What the receiver can notice. -/
def Network.traffic (w : Network) : Nat × List Bytes := (w.calls, w.sent)

omit [Runtime] in
theorem silent_logger (line : String) : Silent Network.traffic (logger line) :=
  .of_modify fun _ => rfl

omit [Runtime] in
theorem silent_sleep {seconds : Int} (h : 0 ≤ seconds) : Silent Network.traffic (sleep seconds) := by
  rw [sleep, if_neg (by omega)]
  exact .of_modify fun _ => rfl

omit [Runtime] in
theorem silent_close : Silent Network.traffic close :=
  (silent_logger _).bind fun _ => .of_modify fun _ => rfl

omit [Runtime] in
theorem agree_span {p q : Program PyError Network Unit} (name : String)
    (h : Agree Network.traffic p q) : Agree Network.traffic (startAsCurrentSpan name p) q :=
  .before (.of_modify fun _ => rfl) fun _ => h.around (.of_modify fun _ => rfl)

omit [Runtime] in
theorem exec_sendto (payload : Bytes) (w : Network) :
    exec (sendto outside payload) w =
      match outside.sendto w.calls with
      | .ok () => (.ok (), { w with calls := w.calls + 1, sent := w.sent ++ [payload] })
      | .error e => (.error e, { w with calls := w.calls + 1 }) := by
  simp only [sendto, exec_bind, exec_get, exec_modify, exec_ofExcept]
  cases outside.sendto w.calls <;> rfl

/-! ## What is left -/

/-- The generator without spans, sleeps and log lines. -/
def transmit : List Json → Program PyError Network Unit
  | [] => pure ()
  | obj :: rest => do
    let payload ← MonadExcept.ofExcept (payloadOf obj)
    sendto outside payload
    transmit rest

theorem transmit_append (objs others : List Json) :
    transmit outside (objs ++ others) =
      transmit outside objs >>= fun _ => transmit outside others := by
  induction objs with
  | nil => simp [transmit]
  | cons obj rest ih => simp [transmit, ih]

omit [Runtime] in
theorem agree_sendto (payload : Bytes) :
    Agree Network.traffic (sendto outside payload) (sendto outside payload) := by
  intro w w' h
  obtain ⟨hcalls, hsent⟩ := Prod.mk.inj h
  rw [exec_sendto, exec_sendto, hcalls]
  cases outside.sendto w'.calls <;> simp [Network.traffic, hsent]

/-- The objects of a batch are sent one after the other. -/
theorem agree_sendAll (objs : List Json) :
    Agree Network.traffic (sendAll outside objs) (transmit outside objs) := by
  induction objs with
  | nil => exact .pure ()
  | cons obj rest ih =>
    have hraise : ∀ e, Agree Network.traffic
        (if outside.isSocketError e then do
          logger "Error sending message: %s"
          throw e
        else throw e : Program PyError Network Unit) (throw e) := by
      intro e
      split
      · exact .before (silent_logger _) fun _ => .throw e
      · exact .throw e
    rw [sendAll, sendObject, bind_assoc]
    exact (Agree.ofExcept _).bind fun payload =>
      ((agree_sendto outside payload).reraise hraise).bind fun _ => ih

/-- So are those of all batches. -/
theorem agree_sendBatches {timeBetweenBatches : Int} (htime : 0 ≤ timeBetweenBatches)
    (batches : List (List Json)) :
    Agree Network.traffic (sendBatches outside timeBetweenBatches batches)
      (transmit outside batches.flatten) := by
  induction batches with
  | nil => exact .pure ()
  | cons batch rest ih =>
    rw [sendBatches, List.flatten_cons, transmit_append]
    exact (agree_sendAll outside batch).bind fun _ =>
      .before (silent_sleep htime) fun _ => .before (silent_logger _) fun _ => ih

theorem agree_send {batchSize timeBetweenBatches : Int} (hbatch : 1 ≤ batchSize)
    (htime : 0 ≤ timeBetweenBatches) (objs : List Json) :
    Agree Network.traffic (send outside objs batchSize timeBetweenBatches)
      (transmit outside objs) := by
  have hflatten := flatten_batched (n := batchSize.toNat) (by omega) objs
  have hbatches := agree_sendBatches outside htime (batched batchSize.toNat objs)
  rw [hflatten] at hbatches
  rwa [send, if_neg (by omega)]

/-- What reaches the network is the traced objects, one after the other. -/
theorem main_agrees {validator : Validator} {source : Bytes} {batchSize timeBetweenBatches : Int}
    (hbatch : 1 ≤ batchSize) (htime : 0 ≤ timeBetweenBatches)
    {objects : List ValidatedObject} {errors : List ValidationError}
    (hfile : getValidatedObjectsFromFile validator source = .ok (objects, errors))
    {traced : List Json} (htraced : injectTraceContext outside 0 (objects.map (·.data)) = .ok traced) :
    Agree Network.traffic (main outside validator source batchSize timeBetweenBatches)
      (transmit outside traced) := by
  have hspan : Agree Network.traffic
      (startAsCurrentSpan "generate_stream" do
        let tracedObjects ← MonadExcept.ofExcept
          (injectTraceContext outside 0 (objects.map (·.data)))
        send outside tracedObjects batchSize timeBetweenBatches)
      (transmit outside traced) := by
    refine agree_span "generate_stream" ?_
    rw [htraced]
    exact agree_send outside hbatch htime traced
  have hclient := (hspan.around silent_close).after
    (silent_logger "Stream generated successfully")
  have hread : (MonadExcept.ofExcept (getValidatedObjectsFromFile validator source) :
      Program PyError Network _) = pure (objects, errors) := by
    rw [hfile]
    rfl
  rw [main, hread, pure_bind]
  dsimp only
  split
  · exact .before (silent_logger _) fun _ => hclient
  · exact .before (silent_logger _) fun _ => .before (silent_logger _) fun _ => hclient

/-! ## Runs -/

variable {outside}

/-- As long as `sendto` returns, every payload is sent. -/
theorem exec_transmit {objs : List Json} {payloads : List Bytes}
    (hpayloads : objs.map payloadOf = payloads.map .ok) {w : Network}
    (hreturns : ∀ i < payloads.length, outside.sendto (w.calls + i) = .ok ()) :
    exec (transmit outside objs) w =
      (.ok (), { w with calls := w.calls + payloads.length, sent := w.sent ++ payloads }) := by
  induction objs generalizing payloads w with
  | nil =>
    obtain rfl := List.map_eq_nil_iff.mp hpayloads.symm
    simp [transmit]
  | cons obj rest ih =>
    cases payloads with
    | nil => cases hpayloads
    | cons payload others =>
      simp only [List.map_cons, List.cons.injEq] at hpayloads
      obtain ⟨hpayload, hothers⟩ := hpayloads
      have hfirst : outside.sendto w.calls = .ok () := hreturns 0 (by simp)
      simp only [transmit, exec_bind, exec_ofExcept, hpayload, exec_sendto, hfirst]
      rw [ih hothers]
      · simp [Nat.add_comm, Nat.add_left_comm]
      · intro i hi
        have hnext := hreturns (i + 1) (by simpa using hi)
        rwa [← Nat.add_assoc, Nat.add_right_comm] at hnext

/-- The first call that raises ends the run: the payloads before it were sent. -/
theorem exec_transmit_raises {objs : List Json} {payloads : List Bytes}
    (hpayloads : objs.map payloadOf = payloads.map .ok) {w : Network} {k : Nat}
    (hk : k < payloads.length) (hreturns : ∀ i < k, outside.sendto (w.calls + i) = .ok ())
    {e : PyError} (hraises : outside.sendto (w.calls + k) = .error e) :
    exec (transmit outside objs) w =
      (.error e, { w with calls := w.calls + k + 1, sent := w.sent ++ payloads.take k }) := by
  have hlength : objs.length = payloads.length := by simpa using congrArg List.length hpayloads
  have hbefore : (objs.take k).map payloadOf = (payloads.take k).map .ok := by
    rw [List.map_take, hpayloads, List.map_take]
  have hat : payloadOf objs[k] = .ok payloads[k] := by
    have hget := congrArg (·[k]?) hpayloads
    simpa [hk, hlength] using hget
  have hsplit : objs = objs.take k ++ objs[k] :: objs.drop (k + 1) := by
    rw [List.getElem_cons_drop, List.take_append_drop]
  have hcount : (payloads.take k).length = k := List.length_take_of_le hk.le
  rw [hsplit, transmit_append, exec_bind, exec_transmit hbefore (by rwa [hcount])]
  simp only [transmit, exec_bind, exec_ofExcept, hat, exec_sendto, hcount, hraises]

end RtlsStream.Generator
