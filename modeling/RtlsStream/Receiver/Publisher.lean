/-
  Receiver/Publisher.lean --- `RabbitMQPublisher` under `start_udp`.

  Two threads: the main thread runs `serve_forever`, and a daemon thread runs the event loop
  that the coroutines of the publisher live in.  `publish` submits a coroutine and blocks on
  its future, so the receiver has one message under way at a time.  An interrupt may come
  while it blocks: the coroutine goes on then, while `close` is already waiting for another.

  A coroutine begins when the loop comes to the callback that was submitted for it, and goes
  on when what it awaits returns or raises, in whatever order the broker answers.  Of what
  becomes of a message the publisher learns only that `exchange.publish` has returned.

  `start_udp` closes its socket before the publisher; here that has always returned.
-/
import RtlsStream.Foundation.Machine
import Mathlib.Data.List.Range
import Mathlib.Logic.Function.Basic

set_option autoImplicit false

namespace RtlsStream.Receiver.Publisher

open RtlsStream.Foundation

/-! ## The two threads -/

/-- A coroutine of the publisher; `publish` is numbered by its call. -/
inductive Coroutine where
  | connect
  | publish (n : Nat)
  | closeConnection
  deriving DecidableEq

/-- What a coroutine awaits. -/
inductive Await where
  | connectRobust
  | channel
  | declareExchange
  | exchangePublish (n : Nat)
  | channelClose
  | connectionClose
  deriving DecidableEq

/-- The first `await` of a coroutine -/
def Coroutine.first : Coroutine → Await
  | .connect => .connectRobust
  | .publish n => .exchangePublish n
  | .closeConnection => .channelClose

def Await.coroutine : Await → Coroutine
  | .connectRobust | .channel | .declareExchange => .connect
  | .exchangePublish n => .publish n
  | .channelClose | .connectionClose => .closeConnection

/-- How a coroutine stands. -/
inductive Stage where
  | unsubmitted
  /-- the loop has not come to it -/
  | ready
  | awaiting (a : Await)
  | returned
  | raised
  deriving DecidableEq

/-- Where a coroutine is when what it awaits has returned. -/
def Await.next : Await → Stage
  | .connectRobust => .awaiting .channel
  | .channel => .awaiting .declareExchange
  | .channelClose => .awaiting .connectionClose
  | .declareExchange | .exchangePublish _ | .connectionClose => .returned

/-- What is submitted to the loop. -/
inductive Callback where
  | begin (c : Coroutine)
  /-- `loop.stop` -/
  | stop
  deriving DecidableEq

/-- Where the main thread is. -/
inductive Pc where
  /-- in `__init__` -/
  | connecting
  /-- in `serve_forever`, outside of `publish` -/
  | serving
  | publishing (n : Nat)
  /-- in `close`, waiting for `_close_connection` -/
  | closing
  /-- in `close`, waiting for the thread -/
  | joining
  | finished
  /-- `start_udp` has raised -/
  | raised
  deriving DecidableEq

/-- The publisher.  `handed` and `returned` record the calls whose message `_publish` has
passed to the exchange, and those that have returned. -/
structure State where
  pc : Pc
  calls : Nat
  ready : List Callback
  stage : Coroutine → Stage
  channelOpen : Bool
  connectionOpen : Bool
  stopped : Bool
  handed : List Nat
  returned : List Nat

/-- `__init__` has submitted `_connect`. -/
def State.start : State where
  pc := .connecting
  calls := 0
  ready := [.begin .connect]
  stage c := if c = .connect then .ready else .unsubmitted
  channelOpen := false
  connectionOpen := false
  stopped := false
  handed := []
  returned := []

/-- `run_coroutine_threadsafe` -/
def State.submit (s : State) (c : Coroutine) : State :=
  { s with
    ready := s.ready ++ [.begin c]
    stage := Function.update s.stage c .ready }

/-- What has been awaited returns. -/
def State.effect (s : State) : Await → State
  | .connectRobust => { s with connectionOpen := true }
  | .channel => { s with channelOpen := true }
  | .channelClose => { s with channelOpen := false }
  | .connectionClose => { s with connectionOpen := false }
  | .declareExchange | .exchangePublish _ => s

/-- The message that a coroutine passes to the exchange when it begins -/
def Coroutine.message? : Coroutine → Option Nat
  | .publish n => some n
  | .connect | .closeConnection => none

/-- One step of the event loop; in its last iteration it still takes what is due. -/
inductive Loop : State → State → Prop
  | begins {s : State} {c : Coroutine} {rest : List Callback} : s.stopped = false →
      s.ready = .begin c :: rest →
      Loop s { s with
        ready := rest
        stage := Function.update s.stage c (.awaiting c.first)
        handed := s.handed ++ c.message?.toList }
  | returns {s : State} {a : Await} : s.stage a.coroutine = .awaiting a →
      Loop s { s.effect a with stage := Function.update s.stage a.coroutine a.next }
  | raises {s : State} {a : Await} : s.stage a.coroutine = .awaiting a →
      Loop s { s with stage := Function.update s.stage a.coroutine .raised }
  | stops {s : State} {rest : List Callback} : s.stopped = false → s.ready = .stop :: rest →
      Loop s { s with ready := rest, stopped := true }

/-- One step of the main thread; an interrupt may come at any time. -/
inductive Main : State → State → Prop
  | connected {s : State} : s.pc = .connecting → s.stage .connect = .returned →
      Main s { s with pc := .serving }
  /-- `__init__`, or what `start_udp` builds next, raises: nothing is closed then -/
  | startFails {s : State} : s.pc = .connecting → Main s { s with pc := .raised }
  | publish {s : State} : s.pc = .serving →
      Main s { s.submit (.publish s.calls) with pc := .publishing s.calls, calls := s.calls + 1 }
  | published {s : State} {n : Nat} : s.pc = .publishing n → s.stage (.publish n) = .returned →
      Main s { s with pc := .serving, returned := s.returned ++ [n] }
  /-- `_handle_processing_error` -/
  | publishRaises {s : State} {n : Nat} : s.pc = .publishing n →
      s.stage (.publish n) = .raised → Main s { s with pc := .serving }
  /-- `recvfrom` raises, or an interrupt -/
  | leaves {s : State} : s.pc = .serving →
      Main s { s.submit .closeConnection with pc := .closing }
  | interrupted {s : State} {n : Nat} : s.pc = .publishing n →
      Main s { s.submit .closeConnection with pc := .closing }
  | closed {s : State} : s.pc = .closing → s.stage .closeConnection = .returned →
      Main s { s with pc := .joining, ready := s.ready ++ [.stop] }
  /-- `_close_connection` raises or takes too long, or an interrupt -/
  | closeFails {s : State} : s.pc = .closing → Main s { s with pc := .raised }
  /-- the thread has ended, or this takes too long -/
  | joins {s : State} : s.pc = .joining → Main s { s with pc := .finished }
  | joinFails {s : State} : s.pc = .joining → Main s { s with pc := .raised }

/-- The publisher and its loop -/
def machine : Machine State where
  init s := s = .start
  step s t := Loop s t ∨ Main s t

/-! ## Messages in order -/

/-- The message that a callback will pass on -/
def Callback.message? : Callback → Option Nat
  | .begin c => c.message?
  | .stop => none

/-- The messages that the loop has not come to -/
def State.queued (s : State) : List Nat := s.ready.filterMap Callback.message?

/-- A coroutine that has begun or will, and has not ended. -/
def Stage.active : Stage → Bool
  | .ready | .awaiting _ => true
  | .unsubmitted | .returned | .raised => false

/-- Outside of `close` and of what follows it -/
def Pc.running : Pc → Bool
  | .connecting | .serving | .publishing _ => true
  | .closing | .joining | .finished | .raised => false

/-- After `__init__`, in `serve_forever` or in `close` -/
def Pc.served : Pc → Bool
  | .connecting | .raised => false
  | .serving | .publishing _ | .closing | .joining | .finished => true

/-- Messages are passed on in the order of the calls, each once. -/
structure Ordered (s : State) : Prop where
  order : s.handed ++ s.queued = List.range s.calls
  /-- a coroutine waits in the queue once, until it begins -/
  ready : ∀ c, s.ready.count (.begin c) = if s.stage c = .ready then 1 else 0
  unsubmitted : ∀ n, s.calls ≤ n → s.stage (.publish n) = .unsubmitted
  running : s.pc.running = true → s.stage .closeConnection = .unsubmitted

variable {s t : State} {c : Coroutine}

@[simp] theorem effect_same (s : State) (a : Await) : (s.effect a).pc = s.pc ∧
    (s.effect a).calls = s.calls ∧ (s.effect a).ready = s.ready ∧ (s.effect a).stage = s.stage ∧
    (s.effect a).handed = s.handed ∧ (s.effect a).returned = s.returned := by
  cases a <;> simp [State.effect]

/-- What was not submitted is not touched. -/
theorem unsubmitted_of_active {c' : Coroutine} {stage : Stage} (hactive : (s.stage c).active = true)
    (h : s.stage c' = .unsubmitted) : Function.update s.stage c stage c' = .unsubmitted := by
  rw [Function.update_of_ne, h]
  rintro rfl
  simp [h, Stage.active] at hactive

namespace Ordered

theorem stage_of_mem (hs : Ordered s) (hmem : .begin c ∈ s.ready) : s.stage c = .ready := by
  have hcount := hs.ready c
  have hpos := List.count_pos_iff.mpr hmem
  by_contra hne
  rw [if_neg hne] at hcount
  omega

/-- A coroutine that is under way goes on or ends. -/
theorem goesOn (hs : Ordered s) {stage : Stage} (hactive : (s.stage c).active = true)
    (hnew : stage ≠ .ready) (hc : s.stage c ≠ .ready) (hstage : t.stage = Function.update s.stage c stage)
    (hpc : t.pc = s.pc) (hcalls : t.calls = s.calls) (hready : t.ready = s.ready)
    (hhanded : t.handed = s.handed) : Ordered t where
  order := by
    unfold State.queued
    rw [hhanded, hready, hcalls]
    exact hs.order
  ready c' := by
    rw [hready, hstage, hs.ready c']
    by_cases hc' : c' = c
    · subst hc'
      simp [hnew, hc]
    · simp [hc']
  unsubmitted n hn := by
    rw [hstage]
    exact unsubmitted_of_active hactive (hs.unsubmitted n (hcalls ▸ hn))
  running hrunning := by
    rw [hstage]
    exact unsubmitted_of_active hactive (hs.running (hpc ▸ hrunning))

theorem begins (hs : Ordered s) {rest : List Callback} (hready : s.ready = .begin c :: rest) :
    Ordered { s with
      ready := rest
      stage := Function.update s.stage c (.awaiting c.first)
      handed := s.handed ++ c.message?.toList } := by
  have hstage : s.stage c = .ready := hs.stage_of_mem (by simp [hready])
  refine ⟨?_, ?_, ?_, ?_⟩
  · have horder := hs.order
    rw [State.queued, hready, List.filterMap_cons] at horder
    cases c <;> simpa [State.queued, Callback.message?, Coroutine.message?] using horder
  · intro c'
    have hcount := hs.ready c'
    rw [hready, List.count_cons] at hcount
    by_cases hc : c' = c
    · subst hc
      simpa [hstage] using hcount
    · simpa [hc, Ne.symm hc] using hcount
  · exact fun n hn => unsubmitted_of_active (by simp [hstage, Stage.active]) (hs.unsubmitted n hn)
  · exact fun h => unsubmitted_of_active (by simp [hstage, Stage.active]) (hs.running h)

theorem loop (hs : Ordered s) (hstep : Loop s t) : Ordered t := by
  cases hstep with
  | begins _ hready => exact hs.begins hready
  | @returns a ha =>
    refine hs.goesOn (by simp [ha, Stage.active]) ?_ (by simp [ha]) rfl ?_ ?_ ?_ ?_
    · cases a <;> simp [Await.next]
    all_goals simp
  | @raises a ha =>
    exact hs.goesOn (by simp [ha, Stage.active]) (by simp) (by simp [ha]) rfl rfl rfl rfl rfl
  | @stops rest _ hready =>
    refine ⟨?_, ?_, hs.unsubmitted, hs.running⟩
    · have horder := hs.order
      rw [State.queued, hready, List.filterMap_cons] at horder
      simpa [State.queued, Callback.message?] using horder
    · intro c
      have hcount := hs.ready c
      rw [hready, List.count_cons] at hcount
      simpa using hcount

/-- The main thread goes on without submitting anything. -/
theorem main_goesOn (hs : Ordered s) (hstage : t.stage = s.stage) (hcalls : t.calls = s.calls)
    (hready : t.ready = s.ready) (hhanded : t.handed = s.handed)
    (hrunning : t.pc.running = true → s.pc.running = true) : Ordered t where
  order := by
    unfold State.queued
    rw [hhanded, hready, hcalls]
    exact hs.order
  ready c := by
    rw [hready, hstage]
    exact hs.ready c
  unsubmitted n hn := by
    rw [hstage]
    exact hs.unsubmitted n (hcalls ▸ hn)
  running h := by
    rw [hstage]
    exact hs.running (hrunning h)

theorem submit_ready (hs : Ordered s) (hc : s.stage c = .unsubmitted) (c' : Coroutine) :
    (s.submit c).ready.count (.begin c') = if (s.submit c).stage c' = .ready then 1 else 0 := by
  have hcount := hs.ready c'
  simp only [State.submit, List.count_append, hcount, List.count_singleton]
  by_cases hc' : c' = c
  · subst hc'
    simp [hc]
  · simp [hc', Ne.symm hc']

theorem leaves (hs : Ordered s) (hpc : s.pc.running = true) :
    Ordered { s.submit .closeConnection with pc := .closing } where
  order := by
    have horder := hs.order
    simpa [State.queued, State.submit, List.filterMap_cons, Callback.message?,
      Coroutine.message?] using horder
  ready := hs.submit_ready (hs.running hpc)
  unsubmitted n hn := by
    have hsame := hs.unsubmitted n hn
    simpa [State.submit] using hsame
  running h := by cases h

theorem main (hs : Ordered s) (hstep : Main s t) : Ordered t := by
  cases hstep with
  | connected hpc | published hpc | publishRaises hpc =>
    exact hs.main_goesOn rfl rfl rfl rfl fun _ => by simp [hpc, Pc.running]
  | startFails | closeFails | joins | joinFails =>
    exact hs.main_goesOn rfl rfl rfl rfl fun h => by cases h
  | leaves hpc | interrupted hpc => exact hs.leaves (by simp [hpc, Pc.running])
  | closed hpc hclosed =>
    refine ⟨?_, ?_, hs.unsubmitted, fun h => by cases h⟩
    · simpa [State.queued, List.filterMap_cons, Callback.message?] using hs.order
    · intro c
      simpa using hs.ready c
  | publish hpc =>
    have hnew := hs.unsubmitted s.calls le_rfl
    refine ⟨?_, hs.submit_ready hnew, ?_, ?_⟩
    · have horder := hs.order
      simp only [State.queued, State.submit, List.filterMap_append] at horder ⊢
      rw [← List.append_assoc, horder, List.range_succ]
      rfl
    · intro n hn
      have hsame := hs.unsubmitted n (Nat.le_of_succ_le hn)
      have hne : n ≠ s.calls := by
        rintro rfl
        exact absurd hn (by simp)
      simpa [State.submit, hne] using hsame
    · intro _
      have hsame := hs.running (by simp [hpc, Pc.running])
      simpa [State.submit] using hsame

end Ordered

theorem ordered (h : machine.Reachable s) : Ordered s := by
  refine Machine.invariant ?_ ?_ h
  · rintro _ rfl
    refine ⟨rfl, fun c => ?_, fun n _ => rfl, fun _ => rfl⟩
    cases c <;> simp [State.start]
  · rintro s t - hs (hstep | hstep)
    · exact hs.loop hstep
    · exact hs.main hstep

/-! ## What `publish` tells its caller -/

/-- The last call, if the main thread has not heard of it. -/
def State.Last (s : State) (n : Nat) : Prop := n + 1 = s.calls ∧ s.pc ≠ .serving

structure Told (s : State) : Prop where
  settled : ∀ n < s.calls, (s.stage (.publish n) = .returned ∨ s.stage (.publish n) = .raised) ∨
    s.Last n
  told : ∀ n < s.calls, s.stage (.publish n) = .returned → n ∈ s.returned ∨ s.Last n
  returned : ∀ n ∈ s.returned, n < s.calls ∧ s.stage (.publish n) = .returned
  publishing : ∀ n, s.pc = .publishing n → n + 1 = s.calls
  connecting : s.pc = .connecting → s.calls = 0

namespace Told

/-- A coroutine under way has told nobody of its end. -/
theorem moves (hs : Told s) {stage : Stage} (hactive : (s.stage c).active = true)
    (hstage : t.stage = Function.update s.stage c stage) (hpc : t.pc = s.pc)
    (hcalls : t.calls = s.calls) (hreturned : t.returned = s.returned) : Told t where
  settled n hn := by
    unfold State.Last
    rw [hstage, hpc, hcalls]
    by_cases hc : .publish n = c
    · subst hc
      rcases hs.settled n (hcalls ▸ hn) with (h | h) | h
      · simp [h, Stage.active] at hactive
      · simp [h, Stage.active] at hactive
      · exact .inr h
    · rw [Function.update_of_ne hc]
      exact hs.settled n (hcalls ▸ hn)
  told n hn hend := by
    unfold State.Last
    rw [hpc, hcalls, hreturned]
    rw [hstage] at hend
    by_cases hc : .publish n = c
    · subst hc
      rcases hs.settled n (hcalls ▸ hn) with (h | h) | h
      · simp [h, Stage.active] at hactive
      · simp [h, Stage.active] at hactive
      · exact .inr h
    · rw [Function.update_of_ne hc] at hend
      exact hs.told n (hcalls ▸ hn) hend
  returned n hn := by
    obtain ⟨hlt, hend⟩ := hs.returned n (hreturned ▸ hn)
    rw [hcalls, hstage, Function.update_of_ne, hend]
    · exact ⟨hlt, rfl⟩
    · rintro rfl
      simp [hend, Stage.active] at hactive
  publishing n h := hcalls ▸ hs.publishing n (hpc ▸ h)
  connecting h := hcalls ▸ hs.connecting (hpc ▸ h)

theorem loop (hs : Told s) (hordered : Ordered s) (hstep : Loop s t) : Told t := by
  cases hstep with
  | @begins c rest _ hready =>
    have hstage : s.stage c = .ready := hordered.stage_of_mem (by simp [hready])
    exact hs.moves (by simp [hstage, Stage.active]) rfl rfl rfl rfl
  | @returns a ha => exact hs.moves (by simp [ha, Stage.active]) rfl (by simp) (by simp) (by simp)
  | @raises a ha => exact hs.moves (by simp [ha, Stage.active]) rfl rfl rfl rfl
  | stops => exact ⟨hs.settled, hs.told, hs.returned, hs.publishing, hs.connecting⟩

/-- The main thread leaves `serve_forever`, or is not in it. -/
theorem leaves (hs : Told s) (hstage : ∀ n, t.stage (.publish n) = s.stage (.publish n))
    (hcalls : t.calls = s.calls) (hreturned : t.returned = s.returned)
    (hpc : t.pc.running = false) : Told t where
  settled n hn := by
    rw [hstage]
    refine (hs.settled n (hcalls ▸ hn)).imp_right fun hlast => ⟨hcalls ▸ hlast.1, ?_⟩
    rintro hserving
    simp [hserving, Pc.running] at hpc
  told n hn hend := by
    rw [hreturned]
    refine (hs.told n (hcalls ▸ hn) (hstage n ▸ hend)).imp_right fun hlast =>
      ⟨hcalls ▸ hlast.1, ?_⟩
    rintro hserving
    simp [hserving, Pc.running] at hpc
  returned n hn := by
    rw [hcalls, hstage]
    exact hs.returned n (hreturned ▸ hn)
  publishing n h := by simp [h, Pc.running] at hpc
  connecting h := by simp [h, Pc.running] at hpc

/-- The last call has ended, and the main thread hears of it. -/
theorem hears (hs : Told s) {n : Nat} (hpc : s.pc = .publishing n)
    (hend : s.stage (.publish n) = .returned ∧ t.returned = s.returned ++ [n] ∨
      s.stage (.publish n) = .raised ∧ t.returned = s.returned)
    (hstage : t.stage = s.stage) (hcalls : t.calls = s.calls) (hserving : t.pc = .serving) :
    Told t where
  settled m hm := by
    left
    rw [hstage]
    rcases hs.settled m (hcalls ▸ hm) with h | ⟨hlast, -⟩
    · exact h
    · obtain rfl : m = n := by
        have hn := hs.publishing n hpc
        omega
      exact hend.imp And.left And.left
  told m hm hreturned := by
    left
    rw [hstage] at hreturned
    rcases hs.told m (hcalls ▸ hm) hreturned with h | ⟨hlast, -⟩
    · rcases hend with ⟨-, heq⟩ | ⟨-, heq⟩ <;> simp [heq, h]
    · obtain rfl : m = n := by
        have hn := hs.publishing n hpc
        omega
      rcases hend with ⟨-, heq⟩ | ⟨hraised, -⟩
      · simp [heq]
      · cases hraised.symm.trans hreturned
  returned m hm := by
    rw [hcalls, hstage]
    rcases hend with ⟨hreturned, heq⟩ | ⟨-, heq⟩
    · rcases List.mem_append.mp (heq ▸ hm) with hm | hm
      · exact hs.returned m hm
      · obtain rfl := List.mem_singleton.mp hm
        have hn := hs.publishing m hpc
        exact ⟨by omega, hreturned⟩
    · exact hs.returned m (heq ▸ hm)
  publishing m h := by cases hserving.symm.trans h
  connecting h := by cases hserving.symm.trans h

/-- The next call is the last. -/
theorem publish (hs : Told s) (hpc : s.pc = .serving) : Told { s.submit (.publish s.calls) with
    pc := .publishing s.calls, calls := s.calls + 1 } where
  settled n hn := by
    rcases Nat.lt_succ_iff_lt_or_eq.mp hn with hlt | rfl
    · left
      rcases hs.settled n hlt with h | ⟨-, hne⟩
      · simpa [State.submit, hlt.ne] using h
      · exact absurd hpc hne
    · exact .inr ⟨rfl, by simp⟩
  told n hn hend := by
    rcases Nat.lt_succ_iff_lt_or_eq.mp hn with hlt | rfl
    · left
      simp only [State.submit, ne_eq, Coroutine.publish.injEq, hlt.ne, not_false_eq_true,
        Function.update_of_ne] at hend
      rcases hs.told n hlt hend with h | ⟨-, hne⟩
      · exact h
      · exact absurd hpc hne
    · exact .inr ⟨rfl, by simp⟩
  returned n hn := by
    obtain ⟨hlt, hend⟩ := hs.returned n hn
    exact ⟨Nat.lt_succ_of_lt hlt, by simpa [State.submit, hlt.ne] using hend⟩
  publishing n h := by
    obtain rfl := Pc.publishing.inj h
    rfl
  connecting h := by cases h

theorem main (hs : Told s) (hstep : Main s t) : Told t := by
  cases hstep with
  | connected hpc =>
    have hcalls := hs.connecting hpc
    exact ⟨by simp [hcalls], by simp [hcalls], hs.returned, by simp, by simp⟩
  | @published n hpc hend => exact hs.hears hpc (.inl ⟨hend, rfl⟩) rfl rfl rfl
  | @publishRaises n hpc hend => exact hs.hears hpc (.inr ⟨hend, rfl⟩) rfl rfl rfl
  | startFails | closed | closeFails | joins | joinFails =>
    exact hs.leaves (fun _ => rfl) rfl rfl rfl
  | leaves | interrupted =>
    exact hs.leaves (fun n => by simp [State.submit]) rfl rfl rfl
  | publish hpc => exact hs.publish hpc

end Told

theorem told (h : machine.Reachable s) : Told s := by
  refine Machine.invariant ?_ ?_ h
  · rintro _ rfl
    exact ⟨by simp [State.start], by simp [State.start], by simp [State.start],
      by simp [State.start], by simp [State.start]⟩
  · rintro s t hreach hs (hstep | hstep)
    · exact hs.loop (ordered hreach) hstep
    · exact hs.main hstep

/-! ## What `close` leaves -/

structure Closed (s : State) : Prop where
  connected : s.stage .connect = .returned ∨
    s.pc.served = false ∧ s.stage .closeConnection = .unsubmitted
  channel : s.stage .closeConnection = .awaiting .connectionClose ∨
    s.stage .closeConnection = .returned → s.channelOpen = false
  connection : s.stage .closeConnection = .returned → s.connectionOpen = false
  ended : s.pc = .joining ∨ s.pc = .finished → s.stage .closeConnection = .returned

namespace Closed

/-- Coroutines that publish do not matter. -/
theorem congr (hs : Closed s) (hconnect : t.stage .connect = s.stage .connect)
    (hclose : t.stage .closeConnection = s.stage .closeConnection)
    (hchannel : t.channelOpen = s.channelOpen) (hconnection : t.connectionOpen = s.connectionOpen)
    (hserved : t.pc.served = true → s.stage .connect = .returned)
    (hended : t.pc = .joining ∨ t.pc = .finished → s.stage .closeConnection = .returned) :
    Closed t where
  connected := by
    rw [hconnect, hclose]
    rcases hs.connected with h | ⟨-, h⟩
    · exact .inl h
    · cases hpc : t.pc.served with
      | true => exact .inl (hserved hpc)
      | false => exact .inr ⟨rfl, h⟩
  channel h := hchannel ▸ hs.channel (hclose ▸ h)
  connection h := hconnection ▸ hs.connection (hclose ▸ h)
  ended h := hclose ▸ hended h

theorem served (hs : Closed s) (hpc : s.pc.served = true) : s.stage .connect = .returned := by
  rcases hs.connected with h | ⟨hunserved, -⟩
  · exact h
  · cases hunserved.symm.trans hpc

/-- Before the connection is made, nothing is closed. -/
theorem unconnected (hs : Closed s) (h : s.stage .connect ≠ .returned) :
    s.pc.served = false ∧ s.stage .closeConnection = .unsubmitted :=
  hs.connected.resolve_left h

/-- `_connect` goes on: nothing is closed yet. -/
theorem connects (hs : Closed s) (h : s.stage .connect ≠ .returned) {stage : Stage}
    (hstage : t.stage = Function.update s.stage .connect stage) (hpc : t.pc = s.pc) : Closed t := by
  obtain ⟨hserved, hclose⟩ := hs.unconnected h
  have hsame : t.stage .closeConnection = .unsubmitted := by simp [hstage, hclose]
  refine ⟨.inr ⟨hpc ▸ hserved, hsame⟩, by simp [hsame], by simp [hsame], fun hjoining => ?_⟩
  cases hclose.symm.trans (hs.ended (hpc ▸ hjoining))

/-- `_close_connection` goes on. -/
theorem closes (hs : Closed s) (hbegun : s.stage .closeConnection ≠ .unsubmitted)
    (h : s.stage .closeConnection ≠ .returned) {stage : Stage}
    (hstage : t.stage = Function.update s.stage .closeConnection stage) (hpc : t.pc = s.pc)
    (hchannel : stage = .awaiting .connectionClose ∨ stage = .returned → t.channelOpen = false)
    (hconnection : stage = .returned → t.connectionOpen = false) : Closed t where
  connected := by
    left
    rw [hstage, Function.update_of_ne (by simp)]
    by_contra hne
    exact hbegun (hs.unconnected hne).2
  channel hnew := hchannel (by simpa [hstage] using hnew)
  connection hnew := hconnection (by simpa [hstage] using hnew)
  ended hjoining := absurd (hs.ended (hpc ▸ hjoining)) h

theorem loop (hs : Closed s) (hordered : Ordered s) (hstep : Loop s t) : Closed t := by
  cases hstep with
  | stops => exact hs.congr rfl rfl rfl rfl hs.served hs.ended
  | @begins c rest _ hready =>
    have hstage : s.stage c = .ready := hordered.stage_of_mem (by simp [hready])
    cases c with
    | publish n => exact hs.congr (by simp) (by simp) rfl rfl hs.served hs.ended
    | connect => exact hs.connects (by simp [hstage]) rfl rfl
    | closeConnection =>
      exact hs.closes (by simp [hstage]) (by simp [hstage]) rfl rfl (by simp [Coroutine.first])
        (by simp)
  | @raises a ha =>
    cases a with
    | exchangePublish n =>
      exact hs.congr (by simp [Await.coroutine]) (by simp [Await.coroutine]) rfl rfl hs.served hs.ended
    | connectRobust | channel | declareExchange =>
      have hconnect : s.stage .connect ≠ .returned := by
        intro h
        cases h.symm.trans ha
      exact hs.connects hconnect rfl rfl
    | channelClose | connectionClose =>
      have hclose : s.stage .closeConnection = .awaiting _ := ha
      exact hs.closes (by simp [hclose]) (by simp [hclose]) rfl rfl (by simp) (by simp)
  | @returns a ha =>
    cases a with
    | exchangePublish n =>
      exact hs.congr (by simp [Await.coroutine]) (by simp [Await.coroutine]) rfl rfl hs.served
        hs.ended
    | connectRobust | channel | declareExchange =>
      have hconnect : s.stage .connect ≠ .returned := by
        intro h
        cases h.symm.trans ha
      exact hs.connects hconnect rfl rfl
    | channelClose =>
      have hclose : s.stage .closeConnection = .awaiting .channelClose := ha
      exact hs.closes (by simp [hclose]) (by simp [hclose]) rfl rfl (fun _ => rfl) (by simp [Await.next])
    | connectionClose =>
      have hclose : s.stage .closeConnection = .awaiting .connectionClose := ha
      exact hs.closes (by simp [hclose]) (by simp [hclose]) rfl rfl
        (fun _ => hs.channel (.inl hclose)) fun _ => rfl

theorem main (hs : Closed s) (hstep : Main s t) : Closed t := by
  cases hstep with
  | connected hpc hconnect =>
    exact hs.congr rfl rfl rfl rfl (fun _ => hconnect) (by simp)
  | startFails | closeFails | joinFails => exact hs.congr rfl rfl rfl rfl (by simp [Pc.served]) (by simp)
  | publish hpc =>
    exact hs.congr (by simp [State.submit]) (by simp [State.submit]) rfl rfl
      (fun _ => hs.served (by simp [hpc, Pc.served])) (by simp)
  | published hpc | publishRaises hpc =>
    exact hs.congr rfl rfl rfl rfl (fun _ => hs.served (by simp [hpc, Pc.served])) (by simp)
  | joins hpc =>
    exact hs.congr rfl rfl rfl rfl (fun _ => hs.served (by simp [hpc, Pc.served]))
      fun _ => hs.ended (.inl hpc)
  | closed hpc hclosed =>
    exact hs.congr rfl rfl rfl rfl (fun _ => hs.served (by simp [hpc, Pc.served])) fun _ => hclosed
  | leaves hpc | interrupted hpc =>
    have hconnect := hs.served (by simp [hpc, Pc.served])
    exact ⟨.inl (by simpa [State.submit] using hconnect), by simp [State.submit],
      by simp [State.submit], by simp⟩

end Closed

theorem closed (h : machine.Reachable s) : Closed s := by
  refine Machine.invariant ?_ ?_ h
  · rintro _ rfl
    exact ⟨.inr ⟨rfl, rfl⟩, by simp [State.start], by simp [State.start], by simp [State.start]⟩
  · rintro s t hreach hs (hstep | hstep)
    · exact hs.loop (ordered hreach) hstep
    · exact hs.main hstep

/-- At any point of either thread, whatever the broker does and when an interrupt comes: the
messages are passed to the exchange in the order of the calls and each once.  A call that
returned has had its `exchange.publish` return; of the calls before the last, and of all while
the receiver is between two messages, just the others have not.  When `close` returns, channel
and connection are closed. -/
theorem publisher_accounted :
    ∀ s, machine.Reachable s →
      s.handed ++ s.queued = List.range s.calls ∧
        (∀ n ∈ s.returned, s.stage (.publish n) = .returned) ∧
        (∀ n < s.calls, n + 1 < s.calls ∨ s.pc = .serving →
          s.stage (.publish n) = .returned ∧ n ∈ s.returned ∨
            s.stage (.publish n) = .raised ∧ n ∉ s.returned) ∧
        (s.pc = .finished → s.channelOpen = false ∧ s.connectionOpen = false) := by
  intro s h
  have htold := told h
  have hclosed := closed h
  refine ⟨(ordered h).order, fun n hn => (htold.returned n hn).2, ?_, ?_⟩
  · intro n hn hearlier
    have hlast : ¬ s.Last n := by
      rintro ⟨hlast, hpc⟩
      rcases hearlier with hlt | hserving
      · omega
      · exact hpc hserving
    rcases (htold.settled n hn).resolve_right hlast with hreturned | hraised
    · exact .inl ⟨hreturned, (htold.told n hn hreturned).resolve_right hlast⟩
    · refine .inr ⟨hraised, fun hmem => ?_⟩
      cases hraised.symm.trans (htold.returned n hmem).2
  · intro hpc
    have hreturned := hclosed.ended (.inr hpc)
    exact ⟨hclosed.channel (.inr hreturned), hclosed.connection hreturned⟩

/-- The publisher is connected. -/
theorem reachable_connected : ∃ s, machine.Reachable s ∧ s.pc = .serving ∧ s.calls = 0 ∧
    s.ready = [] ∧ s.stopped = false ∧ s.returned = [] := by
  have hbegun := (Machine.Reachable.start (M := machine) rfl).next (.inl (.begins rfl rfl))
  have hrobust := hbegun.next (.inl (.returns (a := .connectRobust) rfl))
  have hchannel := hrobust.next (.inl (.returns (a := .channel) rfl))
  have hexchange := hchannel.next (.inl (.returns (a := .declareExchange) rfl))
  exact ⟨_, hexchange.next (.inr (.connected rfl rfl)), rfl, rfl, rfl, rfl, rfl⟩

/-- The exchange answers for one message, and its call returns. -/
theorem publisher_accounted_one : ∃ s, machine.Reachable s ∧ s.returned = [0] ∧
    s.handed ++ s.queued = [0] ∧ s.stage (.publish 0) = .returned := by
  obtain ⟨s, hreach, hpc, hcalls, hready, hstopped, hreturned⟩ := reachable_connected
  have hpublish := hreach.next (.inr (.publish hpc))
  have hbegun := hpublish.next (.inl (.begins hstopped (by rw [State.submit, hready]; rfl)))
  have haccepted := hbegun.next (.inl (.returns (a := .exchangePublish 0) (by simp [hcalls,
    Await.coroutine, Coroutine.first])))
  have hpublished := haccepted.next (.inr (.published (n := 0) (by simp [hcalls]) (by simp
    [Await.coroutine, Await.next])))
  obtain ⟨horder, hend, -⟩ := publisher_accounted _ hpublished
  refine ⟨_, hpublished, ?_, ?_, hend 0 ?_⟩
  · simp [hreturned, State.effect, State.submit]
  · rw [horder]
    simp [hcalls, State.effect, State.submit]
  · simp

end RtlsStream.Receiver.Publisher
