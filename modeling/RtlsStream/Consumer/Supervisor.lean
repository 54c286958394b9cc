/-
  Consumer/Supervisor.lean --- `_run_consumer` and `_lifespan` of `backend/app.py`.

  The consumer connects, sets its channel up and waits for the stop event; what raises on
  the way is retried after a delay.  Every awaited call may return or raise, a connection
  may be lost at any time, and the application may shut down at any time.

  THE ONE WAY OUT.  `connection.close()` is awaited in the `finally` block, where nothing
  catches what it raises.  It ends the consumer for good, and the shutdown raises before
  it closes the pool (`can_serve_iff`, `shutdown_ends`).

  What the model takes from `aio_pika`: `connect_robust` returns an open connection or
  raises and leaves none open, and a connection that `close` returns on is closed.  Open is
  what is not `is_closed`, so a connection that restores itself is open all along.
-/
import RtlsStream.Foundation.Recovery

set_option autoImplicit false

namespace RtlsStream.Consumer.Supervisor

open RtlsStream.Foundation

/-- What is awaited between the connection and the wait, in this order. -/
inductive SetupCall where
  | channel | setQos | declareExchange | declareQueue | bind | consume
  deriving DecidableEq, Repr

def SetupCall.next : SetupCall → Option SetupCall
  | .channel => some .setQos
  | .setQos => some .declareExchange
  | .declareExchange => some .declareQueue
  | .declareQueue => some .bind
  | .bind => some .consume
  | .consume => none

/-- How the `try` statement is left. -/
inductive Exit where
  | toLoop | toEnd
  deriving DecidableEq, Repr

/-- Where `_run_consumer` is. -/
inductive Pc where
  /-- `while not stop_event.is_set()` -/
  | check
  | connecting
  | setup (call : SetupCall)
  /-- `await stop_event.wait()` -/
  | serving
  /-- `asyncio.wait_for(stop_event.wait(), timeout=_CONSUMER_RETRY_DELAY)` -/
  | backoff
  /-- the test of `finally` -/
  | leaving (exit : Exit)
  /-- `await connection.close()` -/
  | closing (exit : Exit)
  | stopped
  /-- `close` has raised -/
  | raised
  deriving DecidableEq, Repr

/-- Where a setup call that returns leads to. -/
def Pc.afterCall (call : SetupCall) : Pc :=
  match call.next with
  | some next => .setup next
  | none => .serving

/-- Where `finally` leads to. -/
def Pc.after : Exit → Pc
  | .toLoop => .check
  | .toEnd => .stopped

/-- Where `_lifespan` is. -/
inductive Lifespan where
  /-- the application runs -/
  | serving
  /-- `await consumer_task` -/
  | awaiting
  /-- `pool.close()` has returned -/
  | finished
  /-- the consumer's exception was raised -/
  | raised
  deriving DecidableEq, Repr

/-- The consumer and the application.  Connections are numbered as they are made;
`attempts` and `timeouts` count the calls of `connect_robust` and the delays that ran out. -/
structure State where
  pc : Pc
  connection : Option Nat
  opened : Nat
  isOpen : Nat → Bool
  stop : Bool
  lifespan : Lifespan
  attempts : Nat
  timeouts : Nat

/-- A connection is closed. -/
def State.close (s : State) (c : Nat) : State :=
  { s with isOpen := Function.update s.isOpen c false }

/-- The connection of the consumer is closed. -/
def State.closeHeld (s : State) : State :=
  { s with isOpen := fun c => s.isOpen c && s.connection != some c }

/-- One step of the consumer or of the application. -/
inductive Own : State → State → Prop
  | attempt {s : State} : s.pc = .check → s.stop = false →
      Own s { s with pc := .connecting, attempts := s.attempts + 1 }
  | leaveLoop {s : State} : s.pc = .check → s.stop = true → Own s { s with pc := .stopped }
  | connectReturns {s : State} : s.pc = .connecting →
      Own s { s with
        pc := .setup .channel
        connection := some s.opened
        opened := s.opened + 1
        isOpen := Function.update s.isOpen s.opened true }
  | connectRaises {s : State} : s.pc = .connecting → Own s { s with pc := .backoff }
  | callReturns {s : State} {call : SetupCall} : s.pc = .setup call →
      Own s { s with pc := .afterCall call }
  | callRaises {s : State} {call : SetupCall} : s.pc = .setup call →
      Own s { s with pc := .backoff }
  | stopSeen {s : State} : s.pc = .serving → s.stop = true →
      Own s { s with pc := .leaving .toEnd }
  | backoffStop {s : State} : s.pc = .backoff → s.stop = true →
      Own s { s with pc := .leaving .toEnd }
  /-- the delay may run out just when the event is set -/
  | backoffTimeout {s : State} : s.pc = .backoff →
      Own s { s with pc := .leaving .toLoop, timeouts := s.timeouts + 1 }
  /-- there is no connection, or it is closed -/
  | leave {s : State} {exit : Exit} : s.pc = .leaving exit →
      (∀ c, s.connection = some c → s.isOpen c = false) → Own s { s with pc := .after exit }
  | leaveClose {s : State} {exit : Exit} {c : Nat} : s.pc = .leaving exit →
      s.connection = some c → s.isOpen c = true → Own s { s with pc := .closing exit }
  | closeReturns {s : State} {exit : Exit} : s.pc = .closing exit →
      Own s { s.closeHeld with pc := .after exit }
  | closeRaises {s : State} {exit : Exit} : s.pc = .closing exit → Own s { s with pc := .raised }
  | shutdown {s : State} : s.lifespan = .serving →
      Own s { s with stop := true, lifespan := .awaiting }
  /-- `pool.close()` -/
  | joined {s : State} : s.lifespan = .awaiting → s.pc = .stopped →
      Own s { s with lifespan := .finished }
  | joinRaises {s : State} : s.lifespan = .awaiting → s.pc = .raised →
      Own s { s with lifespan := .raised }

/-- One step of the consumer or the application, or a connection that closes by itself. -/
inductive Step : State → State → Prop
  | own {s t : State} : Own s t → Step s t
  | lost {s : State} {c : Nat} : s.isOpen c = true → Step s (s.close c)

/-- The application has just started. -/
def machine : Machine State where
  init s := s = ⟨.check, none, 0, fun _ => false, false, .serving, 0, 0⟩
  step := Step

/-! ## One connection at a time -/

/-- No connection is open. -/
def State.Idle (s : State) : Prop := ∀ c, s.isOpen c = false

/-- Nothing is open before a connection is made, nor after the consumer has returned. -/
def Pc.idle : Pc → Prop
  | .check | .connecting | .stopped => True
  | _ => False

/-- The consumer has seen the stop event. -/
def Pc.ending : Pc → Prop
  | .leaving .toEnd | .closing .toEnd | .stopped => True
  | _ => False

/-- An attempt was made since the last delay. -/
def Pc.attempted : Pc → Nat
  | .check | .leaving .toLoop | .closing .toLoop => 0
  | _ => 1

/-- What holds in every reachable state. -/
structure Safe (s : State) : Prop where
  held : ∀ c, s.isOpen c = true → s.connection = some c
  idle : s.pc.idle → s.Idle
  stop : s.stop = true ↔ s.lifespan ≠ .serving
  ending : s.pc.ending → s.stop = true
  finished : s.lifespan = .finished → s.pc = .stopped
  raised : s.lifespan = .raised → s.pc = .raised
  /-- while the consumer runs -/
  spaced : s.pc ≠ .stopped → s.pc ≠ .raised → s.attempts = s.timeouts + s.pc.attempted

namespace Safe

variable {s t : State}

/-- The consumer goes on. -/
theorem goto (h : Safe s) {pc : Pc} {attempts timeouts : Nat}
    (hrunning : s.pc ≠ .stopped ∧ s.pc ≠ .raised) (hidle : pc.idle → s.Idle)
    (hending : pc.ending → s.stop = true)
    (hspaced : pc ≠ .stopped → pc ≠ .raised → attempts = timeouts + pc.attempted) :
    Safe { s with pc := pc, attempts := attempts, timeouts := timeouts } := by
  refine ⟨h.held, hidle, h.stop, hending, ?_, ?_, hspaced⟩
  · exact fun hfinished => absurd (h.finished hfinished) hrunning.1
  · exact fun hraised => absurd (h.raised hraised) hrunning.2

/-- Connections are closed. -/
theorem fewer (h : Safe s) {isOpen : Nat → Bool} (hless : ∀ c, isOpen c = true → s.isOpen c = true) :
    Safe { s with isOpen := isOpen } := by
  refine ⟨fun c hopen => h.held c (hless c hopen), ?_, h.stop, h.ending, h.finished, h.raised,
    h.spaced⟩
  intro hidle c
  have hbefore := h.idle hidle c
  cases hopen : isOpen c with
  | false => exact hopen
  | true => simp [hless c hopen] at hbefore

theorem close (h : Safe s) (c : Nat) : Safe (s.close c) := by
  refine h.fewer fun c' hopen => ?_
  by_cases hc : c' = c
  · subst hc
    simp at hopen
  · simpa [Function.update_of_ne hc] using hopen

theorem closeHeld (h : Safe s) : Safe s.closeHeld :=
  h.fewer fun _ hopen => (Bool.and_eq_true_iff.mp hopen).1

/-- Once the held connection is closed, none is open. -/
theorem idle_of_held (h : Safe s) (hclosed : ∀ c, s.connection = some c → s.isOpen c = false) :
    s.Idle := by
  intro c
  cases hopen : s.isOpen c with
  | false => rfl
  | true => exact absurd (hclosed c (h.held c hopen)) (by simp [hopen])

theorem idle_closeHeld (h : Safe s) : s.closeHeld.Idle :=
  h.closeHeld.idle_of_held fun c hc => by simp [State.closeHeld, show s.connection = some c from hc]

theorem own (h : Safe s) (hstep : Own s t) : Safe t := by
  have hspaced := h.spaced
  cases hstep with
  | attempt hpc _ =>
    exact h.goto (by simp [hpc]) (fun _ => h.idle (by simp [hpc, Pc.idle])) (by simp [Pc.ending])
      (by simpa [hpc, Pc.attempted] using hspaced)
  | leaveLoop hpc hstop =>
    exact h.goto (by simp [hpc]) (fun _ => h.idle (by simp [hpc, Pc.idle])) (fun _ => hstop)
      (by simp)
  | connectReturns hpc =>
    have hidle : s.Idle := h.idle (by simp [hpc, Pc.idle])
    refine ⟨?_, by simp [Pc.idle], h.stop, by simp [Pc.ending], ?_, ?_, ?_⟩
    · intro c hopen
      by_cases hc : c = s.opened
      · rw [hc]
      · simp [Function.update_of_ne hc, hidle c] at hopen
    · intro hfinished
      cases hpc.symm.trans (h.finished hfinished)
    · intro hraised
      cases hpc.symm.trans (h.raised hraised)
    · simpa [hpc, Pc.attempted] using hspaced
  | connectRaises hpc | callRaises hpc =>
    exact h.goto (by simp [hpc]) (by simp [Pc.idle]) (by simp [Pc.ending])
      (by simpa [hpc, Pc.attempted] using hspaced)
  | @callReturns call hpc =>
    rw [hpc] at hspaced
    cases call <;> exact h.goto (by simp [hpc]) (by simp [Pc.afterCall, SetupCall.next, Pc.idle])
      (by simp [Pc.afterCall, SetupCall.next, Pc.ending]) fun _ _ => hspaced (by simp) (by simp)
  | stopSeen hpc hstop | backoffStop hpc hstop =>
    exact h.goto (by simp [hpc]) (by simp [Pc.idle]) (fun _ => hstop)
      (by simpa [hpc, Pc.attempted] using hspaced)
  | backoffTimeout hpc =>
    exact h.goto (by simp [hpc]) (by simp [Pc.idle]) (by simp [Pc.ending])
      (by simpa [hpc, Pc.attempted] using hspaced)
  | @leave exit hpc hclosed =>
    have hidle := h.idle_of_held hclosed
    have hending := h.ending
    rw [hpc] at hspaced hending
    cases exit with
    | toLoop =>
      exact h.goto (by simp [hpc]) (fun _ => hidle) (by simp [Pc.after, Pc.ending])
        fun _ _ => hspaced (by simp) (by simp)
    | toEnd =>
      exact h.goto (by simp [hpc]) (fun _ => hidle) (fun _ => hending trivial) (by simp [Pc.after])
  | @leaveClose exit c hpc _ _ =>
    have hending := h.ending
    rw [hpc] at hspaced hending
    cases exit with
    | toLoop =>
      exact h.goto (by simp [hpc]) (by simp [Pc.idle]) (by simp [Pc.ending])
        fun _ _ => hspaced (by simp) (by simp)
    | toEnd =>
      exact h.goto (by simp [hpc]) (by simp [Pc.idle]) (fun _ => hending trivial)
        fun _ _ => hspaced (by simp) (by simp)
  | @closeReturns exit hpc =>
    have hending := h.ending
    rw [hpc] at hspaced hending
    have hrunning : s.closeHeld.pc ≠ .stopped ∧ s.closeHeld.pc ≠ .raised := by
      simp [State.closeHeld, hpc]
    cases exit with
    | toLoop =>
      exact h.closeHeld.goto hrunning (fun _ => h.idle_closeHeld) (by simp [Pc.after, Pc.ending])
        fun _ _ => hspaced (by simp) (by simp)
    | toEnd =>
      exact h.closeHeld.goto hrunning (fun _ => h.idle_closeHeld) (fun _ => hending trivial)
        (by simp [Pc.after])
  | @closeRaises exit hpc =>
    exact h.goto (by simp [hpc]) (by simp [Pc.idle]) (by simp [Pc.ending]) (by simp)
  | shutdown hlifespan =>
    exact ⟨h.held, h.idle, by simp, fun _ => rfl, by simp, by simp, hspaced⟩
  | joined hlifespan hpc =>
    exact ⟨h.held, h.idle, by simp [h.stop, hlifespan], h.ending, fun _ => hpc, by simp, hspaced⟩
  | joinRaises hlifespan hpc =>
    exact ⟨h.held, h.idle, by simp [h.stop, hlifespan], h.ending, by simp, fun _ => hpc, hspaced⟩

theorem step (h : Safe s) (hstep : Step s t) : Safe t := by
  cases hstep with
  | own hown => exact h.own hown
  | lost => exact h.close _

end Safe

theorem safe {s : State} (h : machine.Reachable s) : Safe s := by
  refine Machine.invariant ?_ (fun _ _ _ hsafe hstep => hsafe.step hstep) h
  rintro _ rfl
  exact ⟨by simp, by simp [State.Idle], by simp, by simp [Pc.ending], by simp, by simp,
    by simp [Pc.attempted]⟩

/-! ## Attempts and delays -/

/-- The step calls `connect_robust`. -/
def Attempts (s t : State) : Prop := Step s t ∧ t.attempts = s.attempts + 1

/-- No other step counts as an attempt. -/
theorem Attempts.from_check {s t : State} (h : Attempts s t) :
    s.pc = .check ∧ t.pc = .connecting ∧ t.timeouts = s.timeouts := by
  obtain ⟨hstep, hcount⟩ := h
  cases hstep with
  | lost => simp [State.close] at hcount
  | own hown =>
    cases hown with
    | attempt hpc => exact ⟨hpc, rfl, rfl⟩
    | _ => simp [State.closeHeld] at hcount

theorem attempts_le {s t : State} (h : Relation.ReflTransGen Step s t) :
    s.attempts ≤ t.attempts := by
  induction h with
  | refl => exact Nat.le_refl _
  | tail _ hstep ih =>
    refine Nat.le_trans ih ?_
    cases hstep with
    | lost => exact Nat.le_refl _
    | own hown => cases hown <;> simp [State.closeHeld]

/-- Between two attempts a delay runs out: after the one there is a delay less than there are
attempts, and before the next there are as many. -/
theorem timeouts_lt {s t u v : State} (h : machine.Reachable s) (hfirst : Attempts s t)
    (hrun : Relation.ReflTransGen Step t u) (hnext : Attempts u v) : t.timeouts < u.timeouts := by
  obtain ⟨hcheck, -, htimeouts⟩ := hfirst.from_check
  obtain ⟨hcheck', -, -⟩ := hnext.from_check
  have hbefore := (safe h).spaced (by simp [hcheck]) (by simp [hcheck])
  have hafter := (safe ((h.next hfirst.1).trans hrun)).spaced (by simp [hcheck'])
    (by simp [hcheck'])
  have hmore := attempts_le hrun
  have hone := hfirst.2
  simp only [hcheck, hcheck', Pc.attempted] at hbefore hafter
  omega

/-- Whatever raises and whenever, at most one connection is open, none is once the consumer
has returned, and the pool is closed after that.  The consumer returns for the shutdown
only, and between any two attempts to connect a delay has run out. -/
theorem consumer_lifecycle :
    ∀ s, machine.Reachable s →
      (∀ c c', s.isOpen c = true → s.isOpen c' = true → c = c') ∧
        (s.pc = .stopped → s.stop = true ∧ s.Idle) ∧
        (s.lifespan = .finished → s.pc = .stopped) ∧
        ∀ t u v, Attempts s t → Relation.ReflTransGen Step t u → Attempts u v →
          t.timeouts < u.timeouts := by
  intro s h
  have hsafe := safe h
  refine ⟨?_, ?_, hsafe.finished, fun t u v => timeouts_lt h⟩
  · intro c c' hopen hopen'
    exact Option.some.inj ((hsafe.held c hopen).symm.trans (hsafe.held c' hopen'))
  · intro hpc
    exact ⟨hsafe.ending (by simp [hpc, Pc.ending]), hsafe.idle (by simp [hpc, Pc.idle])⟩

/-- The first connection is refused, the second attempt connects. -/
def secondAttempt : State where
  pc := .setup .channel
  connection := some 0
  opened := 1
  isOpen c := c = 0
  stop := false
  lifespan := .serving
  attempts := 2
  timeouts := 1

theorem reachable_secondAttempt : machine.Reachable secondAttempt := by
  have hfailed := ((Machine.Reachable.start (M := machine) rfl).next
    (.own (.attempt rfl rfl))).next (.own (.connectRaises rfl))
  have hdelayed := (hfailed.next (.own (.backoffTimeout rfl))).next
    (.own (.leave (rfl : _ = Pc.leaving .toLoop) (by simp)))
  have hconnected := (hdelayed.next (.own (.attempt rfl rfl))).next (.own (.connectReturns rfl))
  have hopen : Function.update (fun _ => false) 0 true = fun c => decide (c = 0) := by
    funext c
    by_cases hc : c = 0 <;> simp [hc, Function.update]
  rw [hopen] at hconnected
  exact hconnected

/-- Between the refused attempt and the second one there is a delay. -/
theorem consumer_lifecycle_second : ∃ s t u v : State,
    machine.Reachable s ∧ Attempts s t ∧ Relation.ReflTransGen Step t u ∧ Attempts u v ∧
      t.timeouts < u.timeouts := by
  let s : State := ⟨.check, none, 0, fun _ => false, false, .serving, 0, 0⟩
  have hs : machine.Reachable s := .start rfl
  have hfirst : Attempts s { s with pc := .connecting, attempts := 1 } :=
    ⟨.own (.attempt rfl rfl), rfl⟩
  have hfailed : Relation.ReflTransGen Step { s with pc := .connecting, attempts := 1 }
      { s with pc := .leaving .toLoop, attempts := 1, timeouts := 1 } :=
    (Relation.ReflTransGen.single (.own (.connectRaises rfl))).tail (.own (.backoffTimeout rfl))
  have hrun := hfailed.tail (.own (.leave (rfl : _ = Pc.leaving .toLoop) (by simp [s])))
  have hnext : Attempts { s with pc := .check, attempts := 1, timeouts := 1 }
      { s with pc := .connecting, attempts := 2, timeouts := 1 } :=
    ⟨.own (.attempt rfl rfl), rfl⟩
  exact ⟨_, _, _, _, hs, hfirst, hrun, hnext,
    (consumer_lifecycle s hs).2.2.2 _ _ _ hfirst hrun hnext⟩

/-! ## The shutdown -/

/-- How many steps the consumer may still take once it is to stop, one of them for each
connection that closes by itself. -/
def Pc.rank : Pc → Nat
  | .stopped | .raised => 0
  | .check => 1
  | .closing _ => 2
  | .leaving _ => 3
  | .backoff | .serving => 4
  | .setup .consume => 5
  | .setup .bind => 6
  | .setup .declareQueue => 7
  | .setup .declareExchange => 8
  | .setup .setQos => 9
  | .setup .channel => 10
  | .connecting => 12

/-- The shutdown waits for the consumer. -/
def Lifespan.rank : Lifespan → Nat
  | .serving => 2
  | .awaiting => 1
  | .finished | .raised => 0

/-- One for the open connection. -/
def State.openCount (s : State) : Nat :=
  match s.connection with
  | some c => if s.isOpen c then 1 else 0
  | none => 0

def State.rank (s : State) : Nat := s.pc.rank + s.openCount + s.lifespan.rank

theorem openCount_le (s : State) : s.openCount ≤ 1 := by
  unfold State.openCount
  split
  · split <;> simp
  · simp

theorem openCount_close {s : State} (hsafe : Safe s) {c : Nat} (hopen : s.isOpen c = true) :
    s.openCount = 1 ∧ (s.close c).openCount = 0 := by
  have hheld := hsafe.held c hopen
  simp [State.openCount, State.close, hheld, hopen]

theorem rank_afterCall (call : SetupCall) : (Pc.afterCall call).rank < (Pc.setup call).rank := by
  cases call <;> decide

theorem rank_backoff (call : SetupCall) : Pc.backoff.rank < (Pc.setup call).rank := by
  cases call <;> decide

theorem rank_after (exit : Exit) : (Pc.after exit).rank < (Pc.closing exit).rank := by
  cases exit <;> decide

/-- A step that leaves the connections alone lowers the rank with the program counter. -/
theorem rank_goto {s : State} {pc : Pc} {attempts timeouts : Nat} (h : pc.rank < s.pc.rank) :
    ({ s with pc := pc, attempts := attempts, timeouts := timeouts } : State).rank < s.rank := by
  unfold State.rank
  exact Nat.add_lt_add_right (Nat.add_lt_add_right h _) _

/-- Every step after the stop brings the end nearer. -/
theorem rank_own {s t : State} (hsafe : Safe s) (hstop : s.stop = true) (hown : Own s t) :
    t.rank < s.rank := by
  cases hown with
  | attempt _ hrunning => simp [hstop] at hrunning
  | leaveLoop hpc | connectRaises hpc | stopSeen hpc | backoffStop hpc | backoffTimeout hpc =>
    exact rank_goto (by rw [hpc]; decide)
  | @callReturns call hpc => exact rank_goto (hpc ▸ rank_afterCall call)
  | @callRaises call hpc => exact rank_goto (hpc ▸ rank_backoff call)
  | @leave exit hpc => exact rank_goto (hpc ▸ Nat.lt_trans (rank_after exit) (by simp [Pc.rank]))
  | leaveClose hpc | closeRaises hpc => exact rank_goto (by rw [hpc]; simp [Pc.rank])
  | connectReturns hpc =>
    have hcount := openCount_le { s with
      pc := .setup .channel
      connection := some s.opened
      opened := s.opened + 1
      isOpen := Function.update s.isOpen s.opened true }
    have hrank : (Pc.setup .channel).rank + 2 = s.pc.rank := by rw [hpc]; rfl
    unfold State.rank
    dsimp only
    omega
  | @closeReturns exit hpc =>
    have hcount : s.closeHeld.openCount = 0 := by
      unfold State.openCount
      split <;> simp [hsafe.idle_closeHeld _]
    have hrank := rank_after exit
    rw [← hpc] at hrank
    simp only [State.rank, State.openCount, State.closeHeld] at hcount ⊢
    omega
  | shutdown hlifespan => simp [hsafe.stop, hlifespan] at hstop
  | joined hlifespan | joinRaises hlifespan =>
    simp [State.rank, State.openCount, hlifespan, Lifespan.rank]

theorem rank_step {s t : State} (hsafe : Safe s) (hstop : s.stop = true) (hstep : Step s t) :
    t.rank < s.rank := by
  cases hstep with
  | own hown => exact rank_own hsafe hstop hown
  | lost hopen =>
    obtain ⟨hone, hnone⟩ := openCount_close hsafe hopen
    simp only [State.rank, hone, hnone]
    simp [State.close]

/-- The stop event stays set. -/
theorem stop_step {s t : State} (hstop : s.stop = true) (hstep : Step s t) : t.stop = true := by
  cases hstep with
  | own hown => cases hown <;> first | exact hstop | rfl
  | lost => exact hstop

theorem over_or_awaiting {s : State} (hsafe : Safe s) (hstop : s.stop = true) :
    s.lifespan = .finished ∨ s.lifespan = .raised ∨ s.lifespan = .awaiting := by
  have hlifespan := hsafe.stop.mp hstop
  cases h : s.lifespan <;> simp_all

/-- The consumer and the application are done when neither can go on. -/
theorem own_or_over {s : State} (hsafe : Safe s) (hstop : s.stop = true) :
    s.lifespan = .finished ∨ s.lifespan = .raised ∨ ∃ t, Own s t := by
  have hgo : ∀ {t : State}, Own s t → s.lifespan = .finished ∨ s.lifespan = .raised ∨ ∃ t, Own s t :=
    fun hown => .inr (.inr ⟨_, hown⟩)
  cases hpc : s.pc with
  | check => exact hgo (.leaveLoop hpc hstop)
  | connecting => exact hgo (.connectRaises hpc)
  | setup => exact hgo (.callRaises hpc)
  | serving => exact hgo (.stopSeen hpc hstop)
  | backoff => exact hgo (.backoffStop hpc hstop)
  | closing => exact hgo (.closeRaises hpc)
  | leaving exit =>
    by_cases hclosed : ∀ c, s.connection = some c → s.isOpen c = false
    · exact hgo (.leave hpc hclosed)
    · simp only [not_forall, Bool.not_eq_false] at hclosed
      obtain ⟨c, hc, hopen⟩ := hclosed
      exact hgo (.leaveClose hpc hc hopen)
  | stopped =>
    rcases over_or_awaiting hsafe hstop with hfinished | hraised | hawaiting
    · exact .inl hfinished
    · exact .inr (.inl hraised)
    · exact hgo (.joined hawaiting hpc)
  | raised =>
    rcases over_or_awaiting hsafe hstop with hfinished | hraised | hawaiting
    · exact .inl hfinished
    · exact .inr (.inl hraised)
    · exact hgo (.joinRaises hawaiting hpc)

theorem rank_le {s : State} (hsafe : Safe s) (hstop : s.stop = true) : s.rank ≤ 13 := by
  have hlifespan : s.lifespan.rank ≤ 1 := by
    rcases over_or_awaiting hsafe hstop with h | h | h <;> simp [h, Lifespan.rank]
  have hcount := openCount_le s
  by_cases hpc : s.pc = .connecting
  · have hidle : s.Idle := hsafe.idle (by simp [hpc, Pc.idle])
    have hnone : s.openCount = 0 := by
      unfold State.openCount
      split <;> simp [hidle _]
    simp only [State.rank, hnone, hpc, Pc.rank]
    omega
  · have hrank : s.pc.rank ≤ 10 := by
      cases hcase : s.pc with
      | connecting => exact absurd hcase hpc
      | setup call => cases call <;> decide
      | _ => simp [Pc.rank]
    unfold State.rank
    omega

/-- Once the application shuts down, at most thirteen more steps are taken, and when the
consumer and the application can take no more the pool is closed and no connection is open,
or `close` has raised and the pool is not closed. -/
theorem shutdown_ends :
    ∀ s, machine.Reachable s → s.stop = true →
      (∀ n t, StepsIn Step n s t → n ≤ 13) ∧
        ∀ t, Relation.ReflTransGen Step s t → (∀ u, ¬ Own t u) →
          (t.lifespan = .finished ∧ t.pc = .stopped ∧ t.Idle) ∨
            (t.lifespan = .raised ∧ t.pc = .raised) := by
  intro s h hstop
  have hbound := rank_le (safe h) hstop
  constructor
  · intro n t hrun
    have hlength := hrun.length_le (P := fun s => Safe s ∧ s.stop = true) State.rank
      (fun _ _ hs hstep => ⟨hs.1.step hstep, stop_step hs.2 hstep⟩)
      (fun _ _ hs hstep => rank_step hs.1 hs.2 hstep) ⟨safe h, hstop⟩
    omega
  · intro t hrun hover
    have hsafe := safe (h.trans hrun)
    have hstop' : t.stop = true :=
      Machine.run_induction (M := machine) (R := fun _ t => t.stop = true) h hstop
        (fun _ _ _ hs hstep => stop_step hs hstep) hrun
    rcases own_or_over hsafe hstop' with hfinished | hraised | ⟨u, hown⟩
    · have hpc := hsafe.finished hfinished
      exact .inl ⟨hfinished, hpc, hsafe.idle (by simp [hpc, Pc.idle])⟩
    · exact .inr ⟨hraised, hsafe.raised hraised⟩
    · exact absurd hown (hover u)

/-- A shutdown in the middle of the setup. -/
theorem shutdown_ends_second : ¬ ∃ t,
    StepsIn Step 14 { secondAttempt with stop := true, lifespan := .awaiting } t := by
  rintro ⟨t, hrun⟩
  have hreach := reachable_secondAttempt.next (.own (.shutdown rfl))
  exact absurd ((shutdown_ends _ hreach rfl).1 14 t hrun) (by decide)

/-! ## Retrying -/

/-- The consumer waits for the stop event with its connection open. -/
def State.Serves (s : State) : Prop := s.pc = .serving ∧ ¬ s.Idle

/-- From the head of the loop, a connection can be made and set up. -/
theorem canReach_serves_of_check {s : State} (hpc : s.pc = .check) (hstop : s.stop = false) :
    machine.CanReach s State.Serves := by
  refine .next (.own (.attempt hpc hstop)) (.next (.own (.connectReturns rfl)) ?_)
  refine .next (.own (.callReturns (rfl : _ = Pc.setup .channel))) ?_
  refine .next (.own (.callReturns (rfl : _ = Pc.setup .setQos))) ?_
  refine .next (.own (.callReturns (rfl : _ = Pc.setup .declareExchange))) ?_
  refine .next (.own (.callReturns (rfl : _ = Pc.setup .declareQueue))) ?_
  refine .next (.own (.callReturns (rfl : _ = Pc.setup .bind))) ?_
  refine .next (.own (.callReturns (rfl : _ = Pc.setup .consume))) (.here ⟨rfl, fun hidle => ?_⟩)
  simpa using hidle s.opened

/-- The `finally` block of a failed attempt leads back to the head of the loop. -/
theorem canReach_serves_of_leaving {s : State} (hpc : s.pc = .leaving .toLoop)
    (hstop : s.stop = false) : machine.CanReach s State.Serves := by
  by_cases hclosed : ∀ c, s.connection = some c → s.isOpen c = false
  · exact .next (.own (.leave hpc hclosed)) (canReach_serves_of_check rfl hstop)
  · simp only [not_forall, Bool.not_eq_false] at hclosed
    obtain ⟨c, hc, hopen⟩ := hclosed
    refine .next (.own (.leaveClose hpc hc hopen)) (.next (.own (.closeReturns rfl)) ?_)
    exact canReach_serves_of_check rfl hstop

theorem canReach_serves_of_backoff {s : State} (hpc : s.pc = .backoff) (hstop : s.stop = false) :
    machine.CanReach s State.Serves :=
  .next (.own (.backoffTimeout hpc)) (canReach_serves_of_leaving rfl hstop)

/-- What `close` has raised ends the consumer. -/
theorem raised_step {s t : State} (hpc : s.pc = .raised) (hstep : Step s t) : t.pc = .raised := by
  cases hstep with
  | own hown => cases hown <;> first | exact hpc | simp_all
  | lost => exact hpc

/-- The consumer waits for the stop event, or has seen it, and its connection is closed. -/
def State.Waits (s : State) : Prop :=
  s.Idle ∧ (s.pc = .serving ∨ s.pc = .leaving .toEnd ∨ s.pc = .stopped)

/-- A consumer whose connection has closed under it does not look at it again. -/
theorem waits_step {s t : State} (hwaits : s.Waits) (hstep : Step s t) : t.Waits := by
  obtain ⟨hidle, hpc⟩ := hwaits
  cases hstep with
  | lost hopen => simp [hidle _] at hopen
  | own hown =>
    cases hown with
    | stopSeen => exact ⟨hidle, .inr (.inl rfl)⟩
    | @leave exit hleaving =>
      refine ⟨hidle, .inr (.inr ?_)⟩
      cases exit with
      | toEnd => rfl
      | toLoop => simp [hleaving] at hpc
    | leaveClose _ _ hopen => simp [hidle _] at hopen
    | shutdown | joined | joinRaises => exact ⟨hidle, hpc⟩
    | _ => simp_all

/-- Before the shutdown, whatever has failed, the consumer can still come to wait on an open
connection, unless `close` has raised or it waits on a connection that has closed by itself:
these two it never leaves. -/
theorem can_serve_iff :
    ∀ s, machine.Reachable s → s.stop = false →
      (machine.CanReach s State.Serves ↔ s.pc ≠ .raised ∧ ¬ (s.pc = .serving ∧ s.Idle)) := by
  intro s h hstop
  have hsafe := safe h
  constructor
  · rintro ⟨t, hrun, hserving, hopen⟩
    constructor
    · intro hraised
      have hraised' := Machine.run_induction (M := machine) (R := fun _ t => t.pc = .raised) h
        hraised (fun _ _ _ hs hstep => raised_step hs hstep) hrun
      cases hserving.symm.trans hraised'
    · rintro ⟨hpc, hidle⟩
      have hwaits := Machine.run_induction (M := machine) (R := fun _ t => t.Waits) h
        ⟨hidle, .inl hpc⟩ (fun _ _ _ hs hstep => waits_step hs hstep) hrun
      exact hopen hwaits.1
  · rintro ⟨hraised, hwaiting⟩
    have hrunning : ¬ s.pc.ending := fun hending => by simp [hsafe.ending hending] at hstop
    cases hpc : s.pc with
    | check => exact canReach_serves_of_check hpc hstop
    | connecting =>
      exact .next (.own (.connectRaises hpc)) (canReach_serves_of_backoff rfl hstop)
    | setup => exact .next (.own (.callRaises hpc)) (canReach_serves_of_backoff rfl hstop)
    | serving => exact .here ⟨hpc, fun hidle => hwaiting ⟨hpc, hidle⟩⟩
    | backoff => exact canReach_serves_of_backoff hpc hstop
    | leaving exit =>
      cases exit with
      | toLoop => exact canReach_serves_of_leaving hpc hstop
      | toEnd => exact absurd (by simp [hpc, Pc.ending]) hrunning
    | closing exit =>
      cases exit with
      | toLoop => exact .next (.own (.closeReturns hpc)) (canReach_serves_of_check rfl hstop)
      | toEnd => exact absurd (by simp [hpc, Pc.ending]) hrunning
    | stopped => exact absurd (by simp [hpc, Pc.ending]) hrunning
    | raised => exact absurd hpc hraised

/-- A consumer whose second attempt has failed halfway comes to serve. -/
theorem can_serve_iff_second :
    machine.CanReach { secondAttempt with pc := .backoff } State.Serves :=
  (can_serve_iff _ (reachable_secondAttempt.next (.own (.callRaises rfl))) rfl).mpr
    ⟨by simp, by simp⟩

end RtlsStream.Consumer.Supervisor
