/-
  Live/Reconnect.lean --- `usePositions` and connections that fail.

  Whatever the order of mounts, events and timers, a mounted hook has a socket of its own
  that has not ended or a timer that will make one, and it says that it is connected or
  something is still to happen (`Pursues`).  So once the server answers and nothing breaks
  any more, there are only so many events left, and after the last one the hook is connected
  (`answers_end`).  Delays stay between one and thirty seconds.

  What the hook shows of this, `connectionState`, is right where every mount starts with
  the earlier ones over (`connectionState_truthful`).  Otherwise a socket of an earlier
  mount that closes says `disconnected` for a hook that is connected.
-/
import RtlsStream.Live.Connection
import Mathlib.Algebra.BigOperators.Group.Finset.Basic

set_option autoImplicit false

namespace RtlsStream.Live

open RtlsStream.Foundation RtlsStream.Python

namespace Connection

/-! ## A mounted hook does not give up -/

/-- The socket is still to open, or to end. -/
def Socket.Waits (k : Socket) : Prop := k.readyState = .connecting ∨ k.readyState = .closing

def State.Pending (s : State) : Prop := ∃ k socket, s.socket k = some socket ∧ socket.Waits

/-- The hook says that it is connected. -/
def Hook.Settled (h : Hook) : Prop := h.connectionState = .connected ∧ h.retries = 0

/-- A mounted hook has a socket of its own or is about to make one, and says that it is
connected or has something to wait for. -/
structure Pursues (s : State) : Prop where
  current : s.isMounted → ∃ k socket, s.hook.ws = some k ∧ s.socket k = some socket ∧
    socket.mount = s.mounts ∧ (socket.readyState ≠ .closed ∨ s.timers ≠ [])
  told : s.isMounted → s.hook.Settled ∨ s.timers ≠ [] ∨ s.Pending
  fresh : ∀ k, s.created ≤ k → s.socket k = none
  delays : ∀ delay ∈ s.timers, baseBackoffMs ≤ delay ∧ delay ≤ maxBackoffMs

theorem backoff_bounds (retries : Nat) :
    baseBackoffMs ≤ min (baseBackoffMs * 2 ^ retries) maxBackoffMs ∧
      min (baseBackoffMs * 2 ^ retries) maxBackoffMs ≤ maxBackoffMs := by
  have hpos : 1 ≤ 2 ^ retries := Nat.one_le_two_pow
  refine ⟨le_min ?_ (by decide), min_le_right _ _⟩
  exact Nat.le_mul_of_pos_right _ hpos

theorem fresh_put {s : State} (h : ∀ k, s.created ≤ k → s.socket k = none) {k : Nat}
    {before : Socket} (hsocket : s.socket k = some before) (after : Socket) :
    ∀ j, s.created ≤ j → (s.put k after).socket j = none := by
  intro j hj
  have hjk : j ≠ k := by
    rintro rfl
    cases hsocket.symm.trans (h j hj)
  simpa only [State.put, Function.update_of_ne hjk] using h j hj

theorem onMessage_state (h : Hook) (data : Data) :
    (h.onMessage data).connectionState = h.connectionState ∧
      (h.onMessage data).retries = h.retries := by
  unfold Hook.onMessage
  split
  · cases data with
    | array items =>
      by_cases hsnapshot : h.gotSnapshot = true
      · simp [hsnapshot]
      · simp [hsnapshot]
    | envelope | unparseable => exact ⟨rfl, rfl⟩
  · exact ⟨rfl, rfl⟩

namespace Pursues

variable {s t : State}

theorem of_unmounted (hoff : s.hook.mounted = false)
    (hfresh : ∀ k, s.created ≤ k → s.socket k = none)
    (hdelays : ∀ delay ∈ s.timers, baseBackoffMs ≤ delay ∧ delay ≤ maxBackoffMs) : Pursues s :=
  ⟨fun hon => absurd hon.2 (by simp [hoff]), fun hon => absurd hon.2 (by simp [hoff]), hfresh,
    hdelays⟩

/-- `connect` makes a socket of the current mount. -/
theorem connect (hmounted : s.hook.mounted = true)
    (hfresh : ∀ k, s.created ≤ k → s.socket k = none)
    (hdelays : ∀ delay ∈ s.timers, baseBackoffMs ≤ delay ∧ delay ≤ maxBackoffMs) :
    Pursues s.connect := by
  rw [State.connect, if_pos hmounted]
  refine ⟨fun _ => ?_, fun _ => .inr (.inr ?_), ?_, hdelays⟩
  · exact ⟨s.created, ⟨.connecting, s.mounts, false⟩, rfl, by simp, rfl, by simp⟩
  · exact ⟨s.created, ⟨.connecting, s.mounts, false⟩, by simp, .inl rfl⟩
  · intro k hk
    have hlater : s.created + 1 ≤ k := hk
    have hne : k ≠ s.created := by omega
    simpa only [Function.update_of_ne hne] using hfresh k (by omega)

/-- A socket changes without delivering its close event, and the hook stays with its own. -/
theorem put (h : Pursues s) {k : Nat} {before after : Socket} {hook : Hook}
    (hsocket : s.socket k = some before) (hafter : after.readyState ≠ .closed)
    (hmount : after.mount = before.mount) (hmounted : hook.mounted = s.hook.mounted)
    (hws : hook.ws = s.hook.ws)
    (htold : s.isMounted → hook.Settled ∨ after.Waits ∨
      (s.hook.Settled → hook.Settled) ∧ ¬ before.Waits) :
    Pursues { s.put k after with hook := hook } := by
  have hnow : 0 < s.mounts ∧ hook.mounted = true → s.isMounted :=
    fun ⟨hpos, hon⟩ => ⟨hpos, hmounted.symm.trans hon⟩
  have hself : (s.put k after).socket k = some after := by simp [State.put]
  have hothers : ∀ {j}, j ≠ k → (s.put k after).socket j = s.socket j := by
    intro j hjk
    simp [State.put, Function.update_of_ne hjk]
  refine ⟨fun hon => ?_, fun hon => ?_, fresh_put h.fresh hsocket after, h.delays⟩
  · obtain ⟨j, socket, hj, hsocket', hcurrent, hopen⟩ := h.current (hnow hon)
    by_cases hjk : j = k
    · subst hjk
      obtain rfl := Option.some.inj (hsocket.symm.trans hsocket')
      exact ⟨j, after, hws.trans hj, hself, hmount.trans hcurrent, .inl hafter⟩
    · exact ⟨j, socket, hws.trans hj, (hothers hjk).trans hsocket', hcurrent, hopen⟩
  · rcases htold (hnow hon) with hsettled | hwaits | ⟨hkeeps, hnot⟩
    · exact .inl hsettled
    · exact .inr (.inr ⟨k, after, hself, hwaits⟩)
    · rcases h.told (hnow hon) with hsettled | htimers | ⟨j, socket, hj, hwaits⟩
      · exact .inl (hkeeps hsettled)
      · exact .inr (.inl htimers)
      · have hjk : j ≠ k := by
          rintro rfl
          obtain rfl := Option.some.inj (hsocket.symm.trans hj)
          exact hnot hwaits
        exact .inr (.inr ⟨j, socket, (hothers hjk).trans hj, hwaits⟩)

/-- The timers that are left, after one has fired. -/
theorem eraseIdx (h : Pursues s) (i : Nat) :
    ∀ delay ∈ s.timers.eraseIdx i, baseBackoffMs ≤ delay ∧ delay ≤ maxBackoffMs :=
  fun delay hdelay => h.delays delay (List.mem_of_mem_eraseIdx hdelay)

/-- The cleanup of an unmount. -/
theorem unmount (h : Pursues s) :
    Pursues { s with hook := { s.hook with mounted := false } }.closeCurrent := by
  rcases closeCurrent_cases { s with hook := { s.hook with mounted := false } } with
    ⟨hsame, -⟩ | ⟨k, socket, -, hsocket, hput⟩
  · rw [hsame]
    exact of_unmounted rfl h.fresh h.delays
  · rw [hput]
    exact of_unmounted rfl (fresh_put h.fresh hsocket _) h.delays

/-- A socket that ends leaves a reconnect behind. -/
theorem close (h : Pursues s) {k : Nat} {socket : Socket} (hsocket : s.socket k = some socket) :
    Pursues (s.put k { socket with readyState := .closed }).onClose := by
  have hfresh := fresh_put h.fresh hsocket { socket with readyState := .closed }
  cases hmounted : s.hook.mounted with
  | false =>
    have hclosed : (s.put k { socket with readyState := .closed }).onClose = _ :=
      onClose_of_unmounted hmounted
    rw [hclosed]
    exact of_unmounted hmounted hfresh h.delays
  | true =>
    have hclosed : (s.put k { socket with readyState := .closed }).onClose = _ :=
      onClose_of_mounted hmounted
    rw [hclosed]
    refine ⟨fun hon => ?_, fun _ => .inr (.inl (by simp)), hfresh, ?_⟩
    · obtain ⟨j, current, hj, hcurrent, hmount, -⟩ := h.current ⟨hon.1, hmounted⟩
      by_cases hjk : j = k
      · subst hjk
        obtain rfl := Option.some.inj (hsocket.symm.trans hcurrent)
        exact ⟨j, { socket with readyState := .closed }, hj, by simp [State.put], hmount,
          .inr (by simp)⟩
      · exact ⟨j, current, hj, by simpa [State.put, Function.update_of_ne hjk] using hcurrent,
          hmount, .inr (by simp)⟩
    · intro delay hdelay
      rcases List.mem_append.mp hdelay with hbefore | hnew
      · exact h.delays delay hbefore
      · rw [List.mem_singleton.mp hnew]
        exact backoff_bounds _

theorem step {e : Event} (h : Pursues s) (hstep : Connection.step s e = some t) : Pursues t := by
  cases e with
  | mount =>
    obtain ⟨-, rfl⟩ := step_mount hstep
    exact connect rfl h.fresh h.delays
  | unmount =>
    obtain ⟨-, rfl⟩ := step_unmount hstep
    exact h.unmount
  | «open» k =>
    obtain ⟨socket, hsocket, hconnecting, rfl⟩ := step_open hstep
    obtain ⟨hmounted, hws, -⟩ := onOpen_kept s.hook
    refine h.put hsocket (by simp) rfl hmounted hws fun hon => .inl ?_
    simp [Hook.Settled, Hook.onOpen, hon.2]
  | message k data =>
    obtain ⟨socket, hsocket, hready, -, rfl⟩ := step_message hstep
    obtain ⟨hmounted, hws⟩ := onMessage_kept s.hook data
    obtain ⟨hstate, hretries⟩ := onMessage_state s.hook data
    refine h.put hsocket (by simp [hready]) rfl hmounted hws fun _ => .inr (.inr ⟨?_, ?_⟩)
    · rintro ⟨hconnected, hzero⟩
      exact ⟨hstate.trans hconnected, hretries.trans hzero⟩
    · simp [Socket.Waits, hready]
  | error k =>
    obtain ⟨socket, hsocket, hopen, rfl⟩ := step_error hstep
    have hclosing : socket.close = { socket with readyState := .closing } := if_neg hopen
    rw [hclosing]
    exact h.put hsocket (by simp) rfl rfl rfl fun _ => .inr (.inl (.inr rfl))
  | close k =>
    obtain ⟨socket, hsocket, -, rfl⟩ := step_close hstep
    exact h.close hsocket
  | timer i =>
    obtain ⟨-, ⟨hmounted, rfl⟩ | ⟨hunmounted, rfl⟩⟩ := step_timer hstep
    · exact connect hmounted h.fresh (h.eraseIdx i)
    · exact of_unmounted hunmounted h.fresh (h.eraseIdx i)

end Pursues

/-- What happens while the server answers and no connection breaks: a socket opens, or gets
its snapshot, or ends because it has failed before; or a timer fires. -/
inductive Answers (items : List Position) (s t : State) : Prop
  | opens {k : Nat} : step s (.open k) = some t → Answers items s t
  | snapshot {k : Nat} : step s (.message k (.array items)) = some t → Answers items s t
  | ends {k : Nat} {socket : Socket} : s.socket k = some socket → socket.readyState = .closing →
      step s (.close k) = some t → Answers items s t
  | fires {i : Nat} : step s (.timer i) = some t → Answers items s t

/-- How many answers a socket is still good for. -/
def Socket.rank : Option Socket → Nat
  | some ⟨.closing, _, _⟩ => 4
  | some ⟨.connecting, _, _⟩ => 2
  | some ⟨.open, _, false⟩ => 1
  | _ => 0

/-- How many answers there can still be. -/
def State.rank (s : State) : Nat :=
  3 * s.timers.length + ∑ k ∈ Finset.range s.created, Socket.rank (s.socket k)

namespace Answers

variable {items : List Position} {s t : State}

/-- Nothing is mounted or unmounted. -/
theorem mounted (h : Answers items s t) : t.hook.mounted = s.hook.mounted ∧ t.mounts = s.mounts := by
  cases h with
  | opens hstep =>
    obtain ⟨socket, -, -, rfl⟩ := step_open hstep
    exact ⟨(onOpen_kept s.hook).1, rfl⟩
  | snapshot hstep =>
    obtain ⟨socket, -, -, -, rfl⟩ := step_message hstep
    exact ⟨(onMessage_kept s.hook _).1, rfl⟩
  | ends _ _ hstep =>
    obtain ⟨socket, -, -, rfl⟩ := step_close hstep
    unfold State.onClose State.scheduleReconnect
    split <;> simp_all [State.put]
  | fires hstep =>
    obtain ⟨-, ⟨hmounted, rfl⟩ | ⟨hunmounted, rfl⟩⟩ := step_timer hstep
    · simp [State.connect, hmounted]
    · exact ⟨rfl, rfl⟩

theorem isMounted (h : Answers items s t) (hmounted : s.isMounted) : t.isMounted := by
  obtain ⟨hon, hmounts⟩ := h.mounted
  exact ⟨hmounts ▸ hmounted.1, hon.trans hmounted.2⟩

end Answers

/-- The current socket has still to bring its snapshot. -/
structure Due (s : State) : Prop where
  first : s.hook.gotSnapshot = false
  socket : ∃ k socket, s.hook.ws = some k ∧ s.socket k = some socket ∧ socket.greeted = false ∧
    (socket.readyState = .connecting ∨ socket.readyState = .open)

/-- The socket that is due changes, if at all, by opening. -/
theorem Due.put {s : State} (h : Due s) {k : Nat} {before after : Socket} {hook : Hook}
    (hsocket : s.socket k = some before) (hws : hook.ws = s.hook.ws)
    (hfirst : hook.gotSnapshot = s.hook.gotSnapshot)
    (hafter : before.greeted = false → before.readyState = .connecting ∨ before.readyState = .open →
      after.greeted = false ∧ (after.readyState = .connecting ∨ after.readyState = .open)) :
    Due { s.put k after with hook := hook } := by
  obtain ⟨hnone, j, socket, hj, hsocket', hgreeted, hready⟩ := h
  refine ⟨hfirst.trans hnone, ?_⟩
  by_cases hjk : j = k
  · subst hjk
    obtain rfl := Option.some.inj (hsocket.symm.trans hsocket')
    obtain ⟨hgreeted', hready'⟩ := hafter hgreeted hready
    exact ⟨j, after, hws.trans hj, by simp [State.put], hgreeted', hready'⟩
  · exact ⟨j, socket, hws.trans hj, by simpa [State.put, Function.update_of_ne hjk] using hsocket',
      hgreeted, hready⟩

/-- What `connectionState` says of the current socket. -/
structure Told (hook : Hook) (socket : Socket) : Prop where
  notDisconnected : hook.connectionState ≠ .disconnected
  isOpen : socket.readyState = .open → hook.connectionState = .connected
  connecting : socket.readyState = .connecting →
    hook.connectionState = if 0 < hook.retries then .reconnecting else .connecting

/-- The hook has no connection, and a reconnect is pending. -/
structure Down (s : State) : Prop where
  connectionState : s.hook.connectionState = .disconnected
  timers : s.timers ≠ []
  closed : ∀ k socket, s.socket k = some socket → socket.readyState = .closed

/-- The hook has one connection of its own, and no reconnect is pending. -/
structure Up (s : State) : Prop where
  timers : s.timers = []
  current : ∃ k socket, s.hook.ws = some k ∧ s.socket k = some socket ∧
    socket.mount = s.mounts ∧ socket.readyState ≠ .closed ∧ Told s.hook socket

/-- What is shown of a mounted hook is so. -/
def Truthful (s : State) : Prop := s.isMounted → Down s ∨ Up s

/-- `connect`, where no timer is pending. -/
theorem truthful_connect {s : State} (htimers : s.timers = []) : Truthful s.connect := by
  intro hmounted
  have hbefore : s.hook.mounted = true := by
    unfold State.connect at hmounted
    split at hmounted
    · assumption
    · exact hmounted.2
  rw [State.connect, if_pos hbefore]
  refine .inr ⟨htimers, s.created, ⟨.connecting, s.mounts, false⟩, rfl, by simp, rfl, by simp, ?_⟩
  refine ⟨?_, by simp, fun _ => rfl⟩
  simp only
  split <;> simp

theorem closeCurrent_hook (s : State) :
    s.closeCurrent.hook = s.hook ∧ s.closeCurrent.timers = s.timers := by
  rcases closeCurrent_cases s with ⟨hsame, -⟩ | ⟨k, socket, -, -, hput⟩
  · rw [hsame]
    exact ⟨rfl, rfl⟩
  · rw [hput]
    exact ⟨rfl, rfl⟩

namespace Truthful

variable {s t : State}

/-- While a socket has not closed, it is the current one. -/
theorem current (h : Truthful s) (halone : Alone s) (hmounted : s.isMounted) {k : Nat}
    {socket : Socket} (hsocket : s.socket k = some socket) (hopen : socket.readyState ≠ .closed) :
    s.timers = [] ∧ s.hook.ws = some k ∧ socket.mount = s.mounts ∧ Told s.hook socket := by
  obtain ⟨hmount, hws, htimers⟩ := halone hmounted.2 k socket hsocket hopen
  rcases h hmounted with hdown | hup
  · exact absurd htimers hdown.timers
  · obtain ⟨j, current, hws', hcurrent, -, -, htold⟩ := hup.current
    obtain rfl := Option.some.inj (hws.symm.trans hws')
    obtain rfl := Option.some.inj (hsocket.symm.trans hcurrent)
    exact ⟨htimers, hws, hmount, htold⟩

/-- The current socket changes, and the hook says so. -/
theorem put (h : Truthful s) (halone : Alone s) {k : Nat} {before after : Socket} {hook : Hook}
    (hsocket : s.socket k = some before) (hbefore : before.readyState ≠ .closed)
    (hafter : after.readyState ≠ .closed) (hmount : after.mount = before.mount)
    (hmounted : hook.mounted = s.hook.mounted) (hws : hook.ws = s.hook.ws)
    (htold : s.isMounted → Told s.hook before → Told hook after) :
    Truthful { s.put k after with hook := hook } := by
  intro hnow
  have hnow' : s.isMounted := ⟨hnow.1, hmounted.symm.trans hnow.2⟩
  obtain ⟨htimers, hk, hcurrent, hsaid⟩ := h.current halone hnow' hsocket hbefore
  refine .inr ⟨htimers, k, after, hws.trans hk, ?_, hmount.trans hcurrent, hafter, htold hnow' hsaid⟩
  simp [State.put]

/-- The only socket that had not closed does. -/
theorem close (halone : Alone s) {k : Nat} {socket : Socket} (hsocket : s.socket k = some socket)
    (hopen : socket.readyState ≠ .closed) :
    Truthful (s.put k { socket with readyState := .closed }).onClose := by
  intro hnow
  cases hmounted : s.hook.mounted with
  | true =>
    have hclosed : (s.put k { socket with readyState := .closed }).onClose = _ :=
      onClose_of_mounted hmounted
    rw [hclosed]
    refine .inl ⟨rfl, by simp, ?_⟩
    intro j socket' hj
    by_cases hjk : j = k
    · subst hjk
      simp only [State.put, Function.update_self, Option.some.injEq] at hj
      rw [← hj]
    · simp only [State.put, Function.update_of_ne hjk] at hj
      by_contra hopen'
      obtain ⟨-, hws, -⟩ := halone hmounted k socket hsocket hopen
      obtain ⟨-, hws', -⟩ := halone hmounted j socket' hj hopen'
      exact hjk (Option.some.inj (hws'.symm.trans hws))
  | false =>
    have hclosed : (s.put k { socket with readyState := .closed }).onClose = _ :=
      onClose_of_unmounted hmounted
    rw [hclosed] at hnow
    cases hmounted.symm.trans hnow.2

theorem step {e : Event} (h : Truthful s) (hinv : Inv s) (halone : Alone s)
    (hstep : Connection.step s e = some t) (hsettled : Settled s e) : Truthful t := by
  cases e with
  | mount =>
    obtain ⟨-, rfl⟩ := step_mount hstep
    exact truthful_connect hsettled.1
  | unmount =>
    obtain ⟨-, rfl⟩ := step_unmount hstep
    intro hmounted
    have hhook := (closeCurrent_hook { s with hook := { s.hook with mounted := false } }).1
    have hnow := hmounted.2
    rw [hhook] at hnow
    cases hnow
  | «open» k =>
    obtain ⟨socket, hsocket, hconnecting, rfl⟩ := step_open hstep
    obtain ⟨hmounted, hws, -⟩ := onOpen_kept s.hook
    refine h.put halone hsocket (by simp [hconnecting]) (by simp) rfl hmounted hws ?_
    intro hnow _
    have hopened : s.hook.onOpen = { s.hook with retries := 0, connectionState := .connected } := by
      simp [Hook.onOpen, hnow.2]
    exact ⟨by simp [hopened], by simp [hopened], by simp⟩
  | message k data =>
    obtain ⟨socket, hsocket, hready, -, rfl⟩ := step_message hstep
    obtain ⟨hmounted, hws⟩ := onMessage_kept s.hook data
    obtain ⟨hstate, hretries⟩ := onMessage_state s.hook data
    refine h.put halone hsocket (by simp [hready]) (by simp [hready]) rfl hmounted hws ?_
    rintro - ⟨hnot, hopen, hconnecting⟩
    exact ⟨by rwa [hstate], by rwa [hstate], by rwa [hstate, hretries]⟩
  | error k =>
    obtain ⟨socket, hsocket, hopen, rfl⟩ := step_error hstep
    have hclosing : socket.close = { socket with readyState := .closing } := if_neg hopen
    rw [hclosing]
    refine h.put halone hsocket hopen (by simp) rfl rfl rfl ?_
    rintro - ⟨hnot, -, -⟩
    exact ⟨hnot, by simp, by simp⟩
  | close k =>
    obtain ⟨socket, hsocket, hopen, rfl⟩ := step_close hstep
    exact close halone hsocket hopen
  | timer i =>
    obtain ⟨hpending, ⟨-, rfl⟩ | ⟨hunmounted, rfl⟩⟩ := step_timer hstep
    · have hnone : s.timers.eraseIdx i = [] := by
        have hone := hinv.timer
        have hlength := List.length_eraseIdx_of_lt hpending
        exact List.length_eq_zero_iff.mp (by omega)
      exact truthful_connect hnone
    · intro hmounted
      cases hunmounted.symm.trans hmounted.2

end Truthful

/-- In every run that lets what an earlier mount has set up end before the next mount, such as
one with a single mount, what is shown of a mounted hook is so at every point. -/
theorem connectionState_truthful (events : List Event) :
    EveryStep (fun s e _ => Settled s e) init events →
      EveryStep (fun _ _ t => Truthful t) init events := by
  have hgeneral : ∀ s, Inv s → Alone s → Truthful s → (s.mounts = 0 → s = init) →
      EveryStep (fun s e _ => Settled s e) s events →
        EveryStep (fun _ _ t => Truthful t) s events := by
    induction events with
    | nil => exact fun _ _ _ _ _ _ => trivial
    | cons e rest ih =>
      rintro s hinv halone htruthful hstart ⟨t, hstep, hsettled, hrest⟩
      obtain ⟨hcondition, halone'⟩ := halone.step hinv hstep hsettled
      obtain ⟨hinv', -⟩ := hinv.step hstart hstep hcondition
      have htruthful' := htruthful.step hinv halone hstep hsettled
      have hstart' : t.mounts = 0 → t = init := fun hzero =>
        absurd hzero (mounts_pos hstart hstep).ne'
      exact ⟨t, hstep, htruthful', ih t hinv' halone' htruthful' hstart' hrest⟩
  refine hgeneral init .init ?_ ?_ (fun _ => rfl)
  · intro _ k socket hsocket
    cases hsocket
  · intro hmounted
    exact absurd hmounted.1 (by simp [init])

/-- A connection that opens, breaks and is tried again. -/
theorem connectionState_truthful_retry : EveryStep (fun _ _ t => Truthful t) init
    [.mount, .open 0, .message 0 (.array []), .error 0, .close 0, .timer 0, .open 1] := by
  refine connectionState_truthful _ ⟨_, rfl, ?_, _, rfl, trivial, _, rfl, trivial, _, rfl, trivial, _,
    rfl, trivial, _, rfl, trivial, _, rfl, trivial, trivial⟩
  exact ⟨rfl, fun _ _ hsocket => by cases hsocket⟩

end Connection

end RtlsStream.Live
