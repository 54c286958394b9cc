/-
  Live/Connection.lean --- the sockets and timers of `usePositions`.

  The hook keeps its data in refs that survive an unmount and the next mount, which is
  what `StrictMode` does to every component.  Every socket has the same four handlers;
  they look at `mountedRef` only, not at which socket is the current one, and no
  reconnect timer is ever cleared.

  Sockets follow the WebSocket standard: open and message events come from a socket
  that has not been closed, the close event ends every socket, and it comes at any
  time after `close()`.  Of the server only the order of its messages matters: the
  snapshot is the first message of a connection and the only array.
-/
import RtlsStream.Live.System

set_option autoImplicit false

namespace RtlsStream.Live

open RtlsStream.Foundation RtlsStream.Python

namespace Connection

/-! ## The hook -/

inductive WsState where
  | disconnected
  | connecting
  | reconnecting
  | connected
  deriving DecidableEq

/-- What `event.data` parses to: for an envelope, what `positionFromEnvelope` makes of it. -/
inductive Data where
  | array (items : List Position)
  | envelope (pos : Position)
  /-- `JSON.parse` throws -/
  | unparseable

/-- The map of positions.  An array taken for an envelope is kept under the key
`undefined`. -/
structure Positions where
  named : Table Position.tagId
  unnamed : Option (List Position)

/-- The map a snapshot makes: a new one, item by item. -/
def Positions.ofSnapshot (items : List Position) : Positions := ⟨.ofList _ items, none⟩

/-- The refs and the state of the hook.  `lastEventTs` is `null` at first and
`undefined` after an array taken for an envelope. -/
structure Hook where
  mounted : Bool
  retries : Nat
  ws : Option Nat
  gotSnapshot : Bool
  positions : Positions
  connectionState : WsState
  lastEventTs : Option (Option Binary64)

/-- `ws.onmessage` -/
def Hook.onMessage (h : Hook) (data : Data) : Hook :=
  if h.mounted then
    match data with
    | .unparseable => h
    | .array items =>
      if h.gotSnapshot then
        { h with
          positions := { h.positions with unnamed := some items }
          lastEventTs := some none }
      else { h with gotSnapshot := true, positions := .ofSnapshot items }
    | .envelope pos =>
      { h with
        positions := { h.positions with named := upsertPosition h.positions.named pos }
        lastEventTs := some (some pos.tsUtcMs) }
  else h

/-- `ws.onopen` -/
def Hook.onOpen (h : Hook) : Hook :=
  if h.mounted then { h with retries := 0, connectionState := .connected } else h

/-! ## Sockets and timers -/

inductive ReadyState where
  | connecting
  | open
  /-- `close()` was called, or an error occurred, and the close event is to come -/
  | closing
  | closed
  deriving DecidableEq

/-- A socket of the hook: when it was made and whether the first message has come. -/
structure Socket where
  readyState : ReadyState
  mount : Nat
  greeted : Bool

/-- Neither `close()` nor an error nor a close event has been. -/
def Socket.unclosed (k : Socket) : Prop := k.readyState = .connecting ∨ k.readyState = .open

/-- The server sends the snapshot first. -/
def Socket.sends (k : Socket) : Data → Prop
  | .array _ => k.greeted = false
  | .envelope _ => k.greeted = true
  | .unparseable => True

instance (k : Socket) (data : Data) : Decidable (k.sends data) := by
  cases data <;> unfold Socket.sends <;> infer_instance

/-- `ws.close()` -/
def Socket.close (k : Socket) : Socket :=
  if k.readyState = .closed then k else { k with readyState := .closing }

/-- The hook, the sockets it has made, the delays of the timers that have not fired and
the number of mounts so far. -/
structure State where
  hook : Hook
  socket : Nat → Option Socket
  created : Nat
  timers : List Nat
  mounts : Nat

/-- The effect has run and has not been cleaned up. -/
def State.isMounted (s : State) : Prop := 0 < s.mounts ∧ s.hook.mounted = true

instance (s : State) : Decidable s.isMounted := by unfold State.isMounted; infer_instance

/-- Put a socket in its place. -/
def State.put (s : State) (k : Nat) (socket : Socket) : State :=
  { s with socket := Function.update s.socket k (some socket) }

/-- `connect` -/
def State.connect (s : State) : State :=
  if s.hook.mounted then
    { s with
      hook := { s.hook with
        connectionState := if 0 < s.hook.retries then .reconnecting else .connecting
        gotSnapshot := false
        ws := some s.created }
      socket := Function.update s.socket s.created (some ⟨.connecting, s.mounts, false⟩)
      created := s.created + 1 }
  else s

def baseBackoffMs : Nat := 1000

def maxBackoffMs : Nat := 30000

/-- `scheduleReconnect` -/
def State.scheduleReconnect (s : State) : State :=
  if s.hook.mounted then
    { s with
      hook := { s.hook with retries := s.hook.retries + 1 }
      timers := s.timers ++ [min (baseBackoffMs * 2 ^ s.hook.retries) maxBackoffMs] }
  else s

/-- `ws.onclose` -/
def State.onClose (s : State) : State :=
  if s.hook.mounted then
    { s with hook := { s.hook with connectionState := .disconnected } }.scheduleReconnect
  else s

/-- `wsRef.current?.close()` -/
def State.closeCurrent (s : State) : State :=
  match s.hook.ws with
  | some k =>
    match s.socket k with
    | some socket => s.put k socket.close
    | none => s
  | none => s

/-! ## Runs -/

inductive Event where
  | mount
  | unmount
  | open (k : Nat)
  | message (k : Nat) (data : Data)
  | error (k : Nat)
  | close (k : Nat)
  /-- a timer fires, in any order -/
  | timer (i : Nat)

/-- The socket that fires the event. -/
def Event.socket : Event → Option Nat
  | .open k | .message k _ | .error k | .close k => some k
  | _ => none

/-- What an event does; nothing is for an event that cannot occur. -/
def step (s : State) : Event → Option State
  | .mount =>
    if s.isMounted then none
    else some { s with hook := { s.hook with mounted := true }, mounts := s.mounts + 1 }.connect
  | .unmount =>
    if s.isMounted then
      some { s with hook := { s.hook with mounted := false } }.closeCurrent
    else none
  | .open k =>
    match s.socket k with
    | some socket =>
      if socket.readyState = .connecting then
        some { s.put k { socket with readyState := .open } with hook := s.hook.onOpen }
      else none
    | none => none
  | .message k data =>
    match s.socket k with
    | some socket =>
      if socket.readyState = .open ∧ socket.sends data then
        some { s.put k { socket with greeted := true } with hook := s.hook.onMessage data }
      else none
    | none => none
  | .error k =>
    match s.socket k with
    | some socket =>
      if socket.readyState = .closed then none else some (s.put k socket.close)
    | none => none
  | .close k =>
    match s.socket k with
    | some socket =>
      if socket.readyState = .closed then none
      else some (s.put k { socket with readyState := .closed }).onClose
    | none => none
  | .timer i =>
    if i < s.timers.length then
      some (if s.hook.mounted then { s with timers := s.timers.eraseIdx i }.connect
        else { s with timers := s.timers.eraseIdx i })
    else none

/-- Before the first effect. -/
def init : State where
  hook := ⟨true, 0, none, false, ⟨.empty, none⟩, .disconnected, none⟩
  socket _ := none
  created := 0
  timers := []
  mounts := 0

/-- The state after a list of events. -/
def run (events : List Event) : Option State := events.foldlM step init

/-- Every step of the events satisfies `P`. -/
def EveryStep (P : State → Event → State → Prop) : State → List Event → Prop
  | _, [] => True
  | s, e :: rest => ∃ t, step s e = some t ∧ P s e t ∧ EveryStep P t rest

/-! ### What each event needs and does -/

theorem step_mount {s t : State} (h : step s .mount = some t) : ¬ s.isMounted ∧
    t = { s with hook := { s.hook with mounted := true }, mounts := s.mounts + 1 }.connect := by
  simp only [step] at h
  split at h
  · cases h
  · rename_i hunmounted
    exact ⟨hunmounted, (Option.some.inj h).symm⟩

theorem step_unmount {s t : State} (h : step s .unmount = some t) : s.isMounted ∧
    t = { s with hook := { s.hook with mounted := false } }.closeCurrent := by
  simp only [step] at h
  split at h
  · rename_i hmounted
    exact ⟨hmounted, (Option.some.inj h).symm⟩
  · cases h

theorem step_open {s t : State} {k : Nat} (h : step s (.open k) = some t) :
    ∃ socket, s.socket k = some socket ∧ socket.readyState = .connecting ∧
      t = { s.put k { socket with readyState := .open } with hook := s.hook.onOpen } := by
  simp only [step] at h
  split at h
  · rename_i socket hsocket
    split at h
    · rename_i hconnecting
      exact ⟨socket, hsocket, hconnecting, (Option.some.inj h).symm⟩
    · cases h
  · cases h

theorem step_message {s t : State} {k : Nat} {data : Data}
    (h : step s (.message k data) = some t) :
    ∃ socket, s.socket k = some socket ∧ socket.readyState = .open ∧ socket.sends data ∧
      t = { s.put k { socket with greeted := true } with hook := s.hook.onMessage data } := by
  simp only [step] at h
  split at h
  · rename_i socket hsocket
    split at h
    · rename_i hsends
      exact ⟨socket, hsocket, hsends.1, hsends.2, (Option.some.inj h).symm⟩
    · cases h
  · cases h

theorem step_error {s t : State} {k : Nat} (h : step s (.error k) = some t) :
    ∃ socket, s.socket k = some socket ∧ socket.readyState ≠ .closed ∧ t = s.put k socket.close := by
  simp only [step] at h
  split at h
  · rename_i socket hsocket
    split at h
    · cases h
    · rename_i hopen
      exact ⟨socket, hsocket, hopen, (Option.some.inj h).symm⟩
  · cases h

theorem step_close {s t : State} {k : Nat} (h : step s (.close k) = some t) :
    ∃ socket, s.socket k = some socket ∧ socket.readyState ≠ .closed ∧
      t = (s.put k { socket with readyState := .closed }).onClose := by
  simp only [step] at h
  split at h
  · rename_i socket hsocket
    split at h
    · cases h
    · rename_i hopen
      exact ⟨socket, hsocket, hopen, (Option.some.inj h).symm⟩
  · cases h

theorem step_timer {s t : State} {i : Nat} (h : step s (.timer i) = some t) :
    i < s.timers.length ∧
      (s.hook.mounted = true ∧ t = { s with timers := s.timers.eraseIdx i }.connect ∨
        s.hook.mounted = false ∧ t = { s with timers := s.timers.eraseIdx i }) := by
  simp only [step] at h
  split at h
  · rename_i hpending
    refine ⟨hpending, ?_⟩
    split at h
    · rename_i hmounted
      exact Or.inl ⟨hmounted, (Option.some.inj h).symm⟩
    · rename_i hmounted
      exact Or.inr ⟨by simpa using hmounted, (Option.some.inj h).symm⟩
  · cases h

theorem onClose_of_mounted {s : State} (h : s.hook.mounted = true) : s.onClose = { s with
    hook := { s.hook with connectionState := .disconnected, retries := s.hook.retries + 1 }
    timers := s.timers ++ [min (baseBackoffMs * 2 ^ s.hook.retries) maxBackoffMs] } := by
  simp [State.onClose, State.scheduleReconnect, h]

theorem onClose_of_unmounted {s : State} (h : s.hook.mounted = false) : s.onClose = s := by
  simp [State.onClose, h]

/-! ## What is to hold -/

/-- At most one socket that has not been closed, and at most one pending reconnect. -/
structure Single (s : State) : Prop where
  socket : ∀ j k a b, s.socket j = some a → s.socket k = some b → a.unclosed → b.unclosed → j = k
  timer : s.timers.length ≤ 1

/-- No event of a socket of an earlier mount changes the hook or its timers, and an array
is applied as the snapshot. -/
structure Kept (s : State) (e : Event) (t : State) : Prop where
  earlier : ∀ k socket, e.socket = some k → s.socket k = some socket →
    socket.mount ≠ s.mounts ∨ s.hook.mounted = false → t.hook = s.hook ∧ t.timers = s.timers
  snapshot : ∀ k items, e = .message k (.array items) →
    t.hook = { s.hook with gotSnapshot := true, positions := .ofSnapshot items }

/-- While the hook is mounted, no socket of an earlier mount delivers its close event, no
socket closes while a reconnect is pending, and no reconnect fires while a socket has
not been closed. -/
def Undisturbed (s : State) : Event → Prop
  | .close k => s.hook.mounted = true →
      (∀ socket, s.socket k = some socket → socket.mount = s.mounts) ∧ s.timers = []
  | .timer _ => s.hook.mounted = true → ∀ k socket, s.socket k = some socket → ¬ socket.unclosed
  | _ => True

/-! ## The invariant -/

/-- A socket that has not been closed is the current one of a mounted hook, and no snapshot
has been applied before its own. -/
structure Inv (s : State) : Prop where
  current : ∀ k socket, s.socket k = some socket → socket.unclosed →
    s.isMounted ∧ s.hook.ws = some k ∧ socket.mount = s.mounts ∧
      (socket.greeted = false → s.hook.gotSnapshot = false)
  fresh : ∀ k, s.created ≤ k → s.socket k = none
  timer : s.timers.length ≤ 1

theorem Inv.single {s : State} (h : Inv s) : Single s := by
  refine ⟨?_, h.timer⟩
  intro j k a b ha hb hopen hopen'
  have hj := (h.current j a ha hopen).2.1
  rw [(h.current k b hb hopen').2.1] at hj
  exact (Option.some.inj hj).symm

/-- `connect`, when every socket before has been closed. -/
theorem Inv.connect {s : State} (hnone : ∀ k socket, s.socket k = some socket → ¬ socket.unclosed)
    (hfresh : ∀ k, s.created ≤ k → s.socket k = none) (htimer : s.timers.length ≤ 1)
    (hmounted : s.isMounted) : Inv s.connect := by
  rw [State.connect, if_pos hmounted.2]
  constructor
  case current =>
    intro k socket hsocket hopen
    by_cases hk : k = s.created
    · subst hk
      simp only [Function.update_self, Option.some.injEq] at hsocket
      subst hsocket
      exact ⟨hmounted, rfl, rfl, fun _ => rfl⟩
    · simp only [Function.update_of_ne hk] at hsocket
      exact absurd hopen (hnone k socket hsocket)
  case fresh =>
    intro k hk
    have hlater : s.created + 1 ≤ k := hk
    have hne : k ≠ s.created := by omega
    simp only [Function.update_of_ne hne]
    exact hfresh k (by omega)
  case timer => exact htimer

/-- A socket that exists changes, without opening again. -/
theorem Inv.put {s : State} (h : Inv s) {k : Nat} {before after : Socket}
    (hsocket : s.socket k = some before)
    (hafter : after.unclosed → before.unclosed ∧ after.mount = before.mount ∧
      (after.greeted = false → before.greeted = false)) : Inv (s.put k after) := by
  constructor
  case current =>
    intro j socket hj hopen
    by_cases hjk : j = k
    · subst hjk
      simp only [State.put, Function.update_self, Option.some.injEq] at hj
      subst hj
      obtain ⟨hbefore, hmount, hgreeted⟩ := hafter hopen
      obtain ⟨hmounted, hws, hcurrent, hfirst⟩ := h.current j before hsocket hbefore
      exact ⟨hmounted, hws, hmount.trans hcurrent, fun hnew => hfirst (hgreeted hnew)⟩
    · simp only [State.put, Function.update_of_ne hjk] at hj
      exact h.current j socket hj hopen
  case fresh =>
    intro j hj
    have hjk : j ≠ k := by
      rintro rfl
      rw [h.fresh j hj] at hsocket
      cases hsocket
    simpa only [State.put, Function.update_of_ne hjk] using h.fresh j hj
  case timer => exact h.timer

theorem not_unclosed_close (k : Socket) : ¬ k.close.unclosed := by
  unfold Socket.close Socket.unclosed
  split <;> simp_all

/-- The hook changes without a new socket and without a snapshot. -/
theorem Inv.hook {s : State} (h : Inv s) {hook : Hook} (hmounted : hook.mounted = s.hook.mounted)
    (hws : hook.ws = s.hook.ws) (hsnapshot : hook.gotSnapshot = s.hook.gotSnapshot) :
    Inv { s with hook := hook } := by
  refine ⟨?_, h.fresh, h.timer⟩
  intro k socket hsocket hopen
  obtain ⟨hcurrent, hk, hmount, hfirst⟩ := h.current k socket hsocket hopen
  exact ⟨⟨hcurrent.1, hmounted.trans hcurrent.2⟩, hws.trans hk, hmount,
    fun hnew => hsnapshot.trans (hfirst hnew)⟩

theorem Inv.init : Inv init := ⟨by simp [Connection.init], fun _ _ => rfl, by simp [Connection.init]⟩

/-- A socket that opens or sends is the current one of a mounted hook. -/
theorem Inv.not_earlier {s : State} (h : Inv s) {k : Nat} {socket : Socket}
    (hsocket : s.socket k = some socket) (hopen : socket.unclosed) :
    ¬ (socket.mount ≠ s.mounts ∨ s.hook.mounted = false) := by
  obtain ⟨hmounted, -, hmount, -⟩ := h.current k socket hsocket hopen
  simp [hmounted.2, hmount]

theorem Inv.mount {s t : State} (h : Inv s) (hstep : step s .mount = some t) : Inv t := by
  obtain ⟨hunmounted, rfl⟩ := step_mount hstep
  refine Inv.connect ?_ h.fresh h.timer ⟨Nat.succ_pos _, rfl⟩
  intro k socket hsocket hopen
  exact hunmounted (h.current k socket hsocket hopen).1

theorem closeCurrent_cases (s : State) :
    (s.closeCurrent = s ∧ ∀ k, s.hook.ws = some k → s.socket k = none) ∨
      ∃ k socket, s.hook.ws = some k ∧ s.socket k = some socket ∧
        s.closeCurrent = s.put k socket.close := by
  unfold State.closeCurrent
  cases hws : s.hook.ws with
  | none => exact Or.inl ⟨rfl, by simp⟩
  | some k =>
    cases hsocket : s.socket k with
    | none => exact Or.inl ⟨by simp [hsocket], by simp [hsocket]⟩
    | some socket => exact Or.inr ⟨k, socket, rfl, hsocket, by simp [hsocket]⟩

/-- The cleanup closes the only socket there is to close. -/
theorem unclosed_closeCurrent {s : State}
    (h : ∀ k socket, s.socket k = some socket → socket.unclosed → s.hook.ws = some k) :
    ∀ k socket, s.closeCurrent.socket k = some socket → ¬ socket.unclosed := by
  intro k socket hsocket hopen
  rcases closeCurrent_cases s with ⟨hsame, hnone⟩ | ⟨j, current, hws, hcurrent, hclosed⟩
  · rw [hsame] at hsocket
    rw [hnone k (h k socket hsocket hopen)] at hsocket
    cases hsocket
  · rw [hclosed] at hsocket
    by_cases hk : k = j
    · subst hk
      simp only [State.put, Function.update_self, Option.some.injEq] at hsocket
      subst hsocket
      exact not_unclosed_close current hopen
    · simp only [State.put, Function.update_of_ne hk] at hsocket
      have hcurrentk := h k socket hsocket hopen
      rw [hws] at hcurrentk
      exact hk (Option.some.inj hcurrentk).symm

theorem Inv.unmount {s t : State} (h : Inv s) (hstep : step s .unmount = some t) : Inv t := by
  obtain ⟨-, rfl⟩ := step_unmount hstep
  have hclosed := unclosed_closeCurrent
    (s := { s with hook := { s.hook with mounted := false } })
    fun k socket hsocket hopen => (h.current k socket hsocket hopen).2.1
  rcases closeCurrent_cases { s with hook := { s.hook with mounted := false } } with
    ⟨hsame, -⟩ | ⟨j, current, -, hcurrent, hput⟩
  · rw [hsame] at hclosed ⊢
    exact ⟨fun k socket hsocket hopen => absurd hopen (hclosed k socket hsocket), h.fresh, h.timer⟩
  · rw [hput] at hclosed ⊢
    refine ⟨fun k socket hsocket hopen => absurd hopen (hclosed k socket hsocket), ?_, h.timer⟩
    intro k hk
    have hkj : k ≠ j := by
      rintro rfl
      have hnone : s.socket k = none := h.fresh k hk
      simp_all
    simpa only [State.put, Function.update_of_ne hkj] using h.fresh k hk

/-- The handlers of a mounted hook take a first array for the snapshot. -/
theorem onMessage_array {h : Hook} (hmounted : h.mounted = true) (hfirst : h.gotSnapshot = false)
    (items : List Position) : h.onMessage (.array items) =
      { h with gotSnapshot := true, positions := .ofSnapshot items } := by
  simp [Hook.onMessage, hmounted, hfirst]

theorem onMessage_kept (h : Hook) (data : Data) :
    (h.onMessage data).mounted = h.mounted ∧ (h.onMessage data).ws = h.ws := by
  unfold Hook.onMessage
  split
  · cases data with
    | array items =>
      by_cases hsnapshot : h.gotSnapshot = true
      · simp [hsnapshot]
      · simp [hsnapshot]
    | envelope | unparseable => exact ⟨rfl, rfl⟩
  · exact ⟨rfl, rfl⟩

theorem onOpen_kept (h : Hook) : h.onOpen.mounted = h.mounted ∧ h.onOpen.ws = h.ws ∧
    h.onOpen.gotSnapshot = h.gotSnapshot := by
  unfold Hook.onOpen
  split <;> exact ⟨rfl, rfl, rfl⟩

theorem Inv.onOpen {s t : State} (h : Inv s) {k : Nat} (hstep : step s (.open k) = some t) :
    Inv t ∧ Kept s (.open k) t := by
  obtain ⟨socket, hsocket, hconnecting, rfl⟩ := step_open hstep
  have hopen : socket.unclosed := Or.inl hconnecting
  have hput : Inv (s.put k { socket with readyState := .open }) :=
    h.put hsocket fun _ => ⟨hopen, rfl, fun hnew => hnew⟩
  obtain ⟨hmounted, hws, hsnapshot⟩ := onOpen_kept s.hook
  refine ⟨hput.hook hmounted hws hsnapshot, ?_, by simp⟩
  intro j socket' hj hsocket' hearlier
  obtain rfl := Option.some.inj hj
  obtain rfl := Option.some.inj (hsocket.symm.trans hsocket')
  exact absurd hearlier (h.not_earlier hsocket hopen)

theorem Inv.onMessage {s t : State} (h : Inv s) {k : Nat} {data : Data}
    (hstep : step s (.message k data) = some t) : Inv t ∧ Kept s (.message k data) t := by
  obtain ⟨socket, hsocket, hready, hsends, rfl⟩ := step_message hstep
  have hopen : socket.unclosed := Or.inr hready
  obtain ⟨hcurrent, hws, hmount, hfirst⟩ := h.current k socket hsocket hopen
  obtain ⟨hmounted, hkept⟩ := onMessage_kept s.hook data
  have hput : Inv (s.put k { socket with greeted := true }) :=
    h.put hsocket fun _ => ⟨hopen, rfl, by simp⟩
  refine ⟨⟨?_, hput.fresh, hput.timer⟩, ?_, ?_⟩
  · -- the socket has been greeted, so nothing is asked of `gotSnapshot` any more
    intro j socket' hj hopen'
    obtain ⟨hmounted', hws', hmount', -⟩ := hput.current j socket' hj hopen'
    obtain rfl : j = k := Option.some.inj (hws'.symm.trans hws)
    simp only [State.put, Function.update_self, Option.some.injEq] at hj
    subst hj
    exact ⟨⟨hmounted'.1, hmounted.trans hmounted'.2⟩, hkept.trans hws', hmount', by simp⟩
  · intro j socket' hj hsocket' hearlier
    obtain rfl := Option.some.inj hj
    obtain rfl := Option.some.inj (hsocket.symm.trans hsocket')
    exact absurd hearlier (h.not_earlier hsocket hopen)
  · intro j items hevent
    cases hevent
    exact onMessage_array hcurrent.2 (hfirst hsends) items

theorem Inv.onError {s t : State} (h : Inv s) {k : Nat} (hstep : step s (.error k) = some t) :
    Inv t ∧ Kept s (.error k) t := by
  obtain ⟨socket, hsocket, -, rfl⟩ := step_error hstep
  refine ⟨h.put hsocket fun hopen => absurd hopen (not_unclosed_close socket), ?_, by simp⟩
  exact fun _ _ _ _ _ => ⟨rfl, rfl⟩

theorem Inv.onClose {s t : State} (h : Inv s) {k : Nat} (hstep : step s (.close k) = some t)
    (hcondition : Undisturbed s (.close k)) : Inv t ∧ Kept s (.close k) t := by
  obtain ⟨socket, hsocket, -, rfl⟩ := step_close hstep
  let after : State := s.put k { socket with readyState := .closed }
  have hput : Inv after := h.put hsocket (by simp [Socket.unclosed])
  cases hmounted : s.hook.mounted with
  | true =>
    obtain ⟨hcurrent, hnone⟩ := hcondition hmounted
    have hclosed : after.onClose = _ := onClose_of_mounted hmounted
    have hhook : Inv { after with
        hook := { s.hook with connectionState := .disconnected, retries := s.hook.retries + 1 } } :=
      hput.hook rfl rfl rfl
    rw [hclosed]
    refine ⟨⟨hhook.current, hhook.fresh, by simp [after, State.put, hnone]⟩, ?_, by simp⟩
    intro j socket' hj hsocket' hearlier
    obtain rfl := Option.some.inj hj
    rcases hearlier with hother | hunmounted
    · exact absurd (hcurrent socket' hsocket') hother
    · rw [hmounted] at hunmounted
      cases hunmounted
  | false =>
    have hclosed : after.onClose = after := onClose_of_unmounted hmounted
    rw [hclosed]
    exact ⟨hput, fun _ _ _ _ _ => ⟨rfl, rfl⟩, by simp⟩

theorem Inv.onTimer {s t : State} (h : Inv s) {i : Nat} (hstep : step s (.timer i) = some t)
    (hcondition : Undisturbed s (.timer i)) (hmounts : 0 < s.mounts) : Inv t := by
  have hfewer : (s.timers.eraseIdx i).length ≤ 1 :=
    (List.length_eraseIdx_le s.timers i).trans h.timer
  obtain ⟨-, ⟨hmounted, rfl⟩ | ⟨-, rfl⟩⟩ := step_timer hstep
  · exact Inv.connect (hcondition hmounted) h.fresh hfewer ⟨hmounts, hmounted⟩
  · exact ⟨h.current, h.fresh, hfewer⟩

@[simp] theorem put_mounts (s : State) (k : Nat) (socket : Socket) :
    (s.put k socket).mounts = s.mounts := rfl

@[simp] theorem connect_mounts (s : State) : s.connect.mounts = s.mounts := by
  unfold State.connect
  split <;> rfl

@[simp] theorem onClose_mounts (s : State) : s.onClose.mounts = s.mounts := by
  cases hmounted : s.hook.mounted with
  | true => rw [onClose_of_mounted hmounted]
  | false => rw [onClose_of_unmounted hmounted]

@[simp] theorem closeCurrent_mounts (s : State) : s.closeCurrent.mounts = s.mounts := by
  rcases closeCurrent_cases s with ⟨hsame, -⟩ | ⟨k, socket, -, -, hput⟩
  · rw [hsame]
  · rw [hput, put_mounts]

theorem mounts_le {s t : State} {e : Event} (hstep : step s e = some t) : s.mounts ≤ t.mounts := by
  cases e with
  | mount =>
    obtain ⟨-, rfl⟩ := step_mount hstep
    simp
  | unmount =>
    obtain ⟨-, rfl⟩ := step_unmount hstep
    simp
  | «open» =>
    obtain ⟨socket, -, -, rfl⟩ := step_open hstep
    rfl
  | message =>
    obtain ⟨socket, -, -, -, rfl⟩ := step_message hstep
    rfl
  | error =>
    obtain ⟨socket, -, -, rfl⟩ := step_error hstep
    rfl
  | close =>
    obtain ⟨socket, -, -, rfl⟩ := step_close hstep
    simp
  | timer =>
    obtain ⟨-, ⟨-, rfl⟩ | ⟨-, rfl⟩⟩ := step_timer hstep
    · simp
    · rfl

/-- Nothing happens before the first mount. -/
theorem mounts_pos {s t : State} {e : Event} (hstart : s.mounts = 0 → s = Connection.init)
    (hstep : step s e = some t) : 0 < t.mounts := by
  rcases Nat.eq_zero_or_pos s.mounts with hzero | hpos
  · obtain rfl := hstart hzero
    cases e with
    | mount =>
      obtain ⟨-, rfl⟩ := step_mount hstep
      simp
    | unmount | «open» | message | error | close | timer =>
      simp [step, Connection.init, State.isMounted] at hstep
  · exact hpos.trans_le (mounts_le hstep)

/-- A step that meets the condition keeps the invariant and does what is wanted. -/
theorem Inv.step {s t : State} {e : Event} (h : Inv s) (hstart : s.mounts = 0 → s = Connection.init)
    (hstep : Connection.step s e = some t) (hcondition : Undisturbed s e) :
    Inv t ∧ Kept s e t := by
  cases e with
  | mount => exact ⟨h.mount hstep, by simp [Event.socket], by simp⟩
  | unmount => exact ⟨h.unmount hstep, by simp [Event.socket], by simp⟩
  | «open» k => exact h.onOpen hstep
  | message k data => exact h.onMessage hstep
  | error k => exact h.onError hstep
  | close k => exact h.onClose hstep hcondition
  | timer i =>
    refine ⟨h.onTimer hstep hcondition ?_, by simp [Event.socket], by simp⟩
    by_contra hzero
    obtain rfl := hstart (by omega)
    simp [Connection.step, Connection.init] at hstep

/-- A step that does what is wanted meets the condition. -/
theorem Inv.undisturbed {s t : State} {e : Event} (h : Inv s)
    (hstep : Connection.step s e = some t) (hsingle : Single t) (hkept : Kept s e t) :
    Undisturbed s e := by
  cases e with
  | mount | unmount | «open» | message | error => trivial
  | close k =>
    intro hmounted
    obtain ⟨socket, hsocket, -, rfl⟩ := step_close hstep
    have hclosed : (s.put k { socket with readyState := .closed }).onClose = _ :=
      onClose_of_mounted hmounted
    rw [hclosed] at hsingle hkept
    constructor
    · intro socket' hsocket'
      by_contra hother
      -- the handler has counted a retry
      have hhook := (hkept.earlier k socket' rfl hsocket' (Or.inl hother)).1
      have hretries := congrArg Hook.retries hhook
      simp [State.put] at hretries
    · have hone := hsingle.timer
      simp only [State.put, List.length_append, List.length_singleton] at hone
      exact List.length_eq_zero_iff.mp (by omega)
  | timer i =>
    intro hmounted j socket hsocket hopen
    obtain ⟨-, ⟨-, rfl⟩ | ⟨hunmounted, -⟩⟩ := step_timer hstep
    · simp only [State.connect, hmounted, if_true] at hsingle
      -- the new socket and the old one are both there
      have hne : j ≠ s.created := by
        rintro rfl
        rw [h.fresh _ le_rfl] at hsocket
        cases hsocket
      refine hne (hsingle.socket j s.created socket ⟨.connecting, s.mounts, false⟩ ?_ ?_ hopen
        (Or.inl rfl))
      · simpa [Function.update_of_ne hne] using hsocket
      · simp
    · rw [hmounted] at hunmounted
      cases hunmounted

/-- Over every run, from the first mount on, one connection is kept at every point exactly
when every event meets the condition. -/
theorem one_connection_iff (events : List Event) :
    EveryStep (fun s e t => Single t ∧ Kept s e t) init events ↔
      EveryStep (fun s e _ => Undisturbed s e) init events := by
  have hgeneral : ∀ s, Inv s → (s.mounts = 0 → s = init) →
      (EveryStep (fun s e t => Single t ∧ Kept s e t) s events ↔
        EveryStep (fun s e _ => Undisturbed s e) s events) := by
    induction events with
    | nil => exact fun _ _ _ => Iff.rfl
    | cons e rest ih =>
      intro s hinv hstart
      constructor
      · rintro ⟨t, hstep, ⟨hsingle, hkept⟩, hrest⟩
        have hcondition := hinv.undisturbed hstep hsingle hkept
        obtain ⟨hinv', -⟩ := hinv.step hstart hstep hcondition
        have hstart' : t.mounts = 0 → t = init := fun hzero =>
          absurd hzero (mounts_pos hstart hstep).ne'
        exact ⟨t, hstep, hcondition, (ih t hinv' hstart').mp hrest⟩
      · rintro ⟨t, hstep, hcondition, hrest⟩
        obtain ⟨hinv', hkept⟩ := hinv.step hstart hstep hcondition
        have hstart' : t.mounts = 0 → t = init := fun hzero =>
          absurd hzero (mounts_pos hstart hstep).ne'
        exact ⟨t, hstep, ⟨hinv'.single, hkept⟩, (ih t hinv' hstart').mpr hrest⟩
  exact hgeneral init .init (fun _ => rfl)

/-- What `StrictMode` does, with a close event that comes after the second mount: the old
socket schedules a reconnect, and both connections get a snapshot. -/
def strictMode : List Event :=
  [.mount, .unmount, .mount, .open 1, .close 0, .timer 0, .open 2, .message 1 (.array []),
    .message 2 (.array [])]

/-- Two sockets are open, and the second snapshot was taken for an envelope. -/
theorem two_connections :
    ∃ s, run strictMode = some s ∧ ¬ Single s ∧ s.hook.positions.unnamed = some [] := by
  refine ⟨_, rfl, ?_, rfl⟩
  intro hsingle
  have hsame := hsingle.socket 1 2 _ _ rfl rfl (Or.inr rfl) (Or.inr rfl)
  cases hsame

/-! ## A sufficient condition on the mounts -/

/-- At every mount, what earlier mounts have set up is over: every timer has fired and every
socket has delivered its close event. -/
def Settled (s : State) : Event → Prop
  | .mount => s.timers = [] ∧
      ∀ k socket, s.socket k = some socket → socket.readyState = .closed
  | _ => True

/-- While the hook is mounted, its current socket is the only one that may still deliver an
event, and no reconnect is pending until it has closed. -/
def Alone (s : State) : Prop :=
  s.hook.mounted = true → ∀ k socket, s.socket k = some socket → socket.readyState ≠ .closed →
    socket.mount = s.mounts ∧ s.hook.ws = some k ∧ s.timers = []

/-- `connect`, when every socket before has delivered its close event. -/
theorem Alone.connect {s : State} (htimers : s.timers = [])
    (hclosed : ∀ k socket, s.socket k = some socket → socket.readyState = .closed) :
    Alone s.connect := by
  intro hmounted k socket hsocket hopen
  unfold State.connect at hmounted hsocket ⊢
  split at hsocket
  · rename_i hbefore
    rw [if_pos hbefore]
    by_cases hk : k = s.created
    · subst hk
      simp only [Function.update_self, Option.some.injEq] at hsocket
      subst hsocket
      exact ⟨rfl, rfl, htimers⟩
    · simp only [Function.update_of_ne hk] at hsocket
      exact absurd (hclosed k socket hsocket) hopen
  · exact absurd (hclosed k socket hsocket) hopen

/-- A socket changes, and the hook stays as it is but for its data. -/
theorem Alone.put {s : State} (h : Alone s) {k : Nat} {before after : Socket} {hook : Hook}
    (hsocket : s.socket k = some before) (hbefore : before.readyState ≠ .closed)
    (hmount : after.mount = before.mount) (hmounted : hook.mounted = s.hook.mounted)
    (hws : hook.ws = s.hook.ws) : Alone { s.put k after with hook := hook } := by
  intro hnow j socket hj hopen
  by_cases hjk : j = k
  · subst hjk
    simp only [State.put, Function.update_self, Option.some.injEq] at hj
    subst hj
    obtain ⟨hcurrent, hcurrentWs, htimers⟩ := h (hmounted.symm.trans hnow) j before hsocket hbefore
    exact ⟨hmount.trans hcurrent, hws.trans hcurrentWs, htimers⟩
  · simp only [State.put, Function.update_of_ne hjk] at hj
    obtain ⟨hcurrent, hcurrentWs, htimers⟩ := h (hmounted.symm.trans hnow) j socket hj hopen
    exact ⟨hcurrent, hws.trans hcurrentWs, htimers⟩

/-- `onclose` of the only socket that had an event to come. -/
theorem Alone.close {s : State} (h : Alone s) {k : Nat} {socket : Socket}
    (hsocket : s.socket k = some socket) (hopen : socket.readyState ≠ .closed) :
    Alone (s.put k { socket with readyState := .closed }).onClose := by
  intro hmounted j socket' hj hopen'
  cases hbefore : s.hook.mounted with
  | true =>
    have hclosed : (s.put k { socket with readyState := .closed }).onClose = _ :=
      onClose_of_mounted hbefore
    rw [hclosed] at hj
    have hjk : j ≠ k := by
      rintro rfl
      simp only [State.put, Function.update_self, Option.some.injEq] at hj
      subst hj
      exact hopen' rfl
    simp only [State.put, Function.update_of_ne hjk] at hj
    obtain ⟨-, hws, -⟩ := h hbefore k socket hsocket hopen
    obtain ⟨-, hws', -⟩ := h hbefore j socket' hj hopen'
    exact absurd (Option.some.inj (hws'.symm.trans hws)) hjk
  | false =>
    have hclosed : (s.put k { socket with readyState := .closed }).onClose = _ :=
      onClose_of_unmounted hbefore
    rw [hclosed] at hmounted
    exact absurd hmounted (by simp [State.put, hbefore])

/-- While a reconnect is pending every socket has closed. -/
theorem Alone.closed_of_timer {s : State} (h : Alone s) (hmounted : s.hook.mounted = true)
    {i : Nat} (hpending : i < s.timers.length) :
    ∀ k socket, s.socket k = some socket → socket.readyState = .closed := by
  intro k socket hsocket
  by_contra hopen
  have htimers := (h hmounted k socket hsocket hopen).2.2
  rw [htimers] at hpending
  exact absurd hpending (Nat.not_lt_zero _)

/-- Where earlier mounts are over, nothing disturbs the current one. -/
theorem Alone.step {s t : State} {e : Event} (hinv : Inv s) (h : Alone s)
    (hstep : Connection.step s e = some t) (hsettled : Settled s e) :
    Undisturbed s e ∧ Alone t := by
  cases e with
  | mount =>
    obtain ⟨-, rfl⟩ := step_mount hstep
    exact ⟨trivial, Alone.connect hsettled.1 hsettled.2⟩
  | unmount =>
    obtain ⟨-, rfl⟩ := step_unmount hstep
    refine ⟨trivial, ?_⟩
    intro hmounted
    rcases closeCurrent_cases { s with hook := { s.hook with mounted := false } } with
      ⟨hsame, -⟩ | ⟨k, socket, -, -, hput⟩
    · rw [hsame] at hmounted
      cases hmounted
    · rw [hput] at hmounted
      cases hmounted
  | «open» k =>
    obtain ⟨socket, hsocket, hconnecting, rfl⟩ := step_open hstep
    obtain ⟨hmounted, hws, -⟩ := onOpen_kept s.hook
    exact ⟨trivial, h.put hsocket (by simp [hconnecting]) rfl hmounted hws⟩
  | message k data =>
    obtain ⟨socket, hsocket, hready, -, rfl⟩ := step_message hstep
    obtain ⟨hmounted, hws⟩ := onMessage_kept s.hook data
    exact ⟨trivial, h.put hsocket (by simp [hready]) rfl hmounted hws⟩
  | error k =>
    obtain ⟨socket, hsocket, hopen, rfl⟩ := step_error hstep
    refine ⟨trivial, h.put hsocket hopen ?_ rfl rfl⟩
    unfold Socket.close
    split <;> rfl
  | close k =>
    obtain ⟨socket, hsocket, hopen, rfl⟩ := step_close hstep
    refine ⟨fun hmounted => ?_, h.close hsocket hopen⟩
    obtain ⟨hmount, -, htimers⟩ := h hmounted k socket hsocket hopen
    refine ⟨?_, htimers⟩
    intro socket' hsocket'
    obtain rfl := Option.some.inj (hsocket.symm.trans hsocket')
    exact hmount
  | timer i =>
    obtain ⟨hpending, ⟨hmounted, rfl⟩ | ⟨hunmounted, rfl⟩⟩ := step_timer hstep
    · have hclosed := h.closed_of_timer hmounted hpending
      have hnone : s.timers.eraseIdx i = [] := by
        have hone := hinv.timer
        have hlength := List.length_eraseIdx_of_lt hpending
        exact List.length_eq_zero_iff.mp (by omega)
      refine ⟨?_, Alone.connect hnone hclosed⟩
      intro _ k socket hsocket hopen
      have hready := hclosed k socket hsocket
      rcases hopen with hopen | hopen <;> rw [hready] at hopen <;> cases hopen
    · refine ⟨fun hmounted => ?_, fun hmounted => ?_⟩
      · rw [hmounted] at hunmounted
        cases hunmounted
      · have hmounted' : s.hook.mounted = true := hmounted
        rw [hmounted'] at hunmounted
        cases hunmounted

/-- A run that lets every mount settle before the next, such as one with a single mount, is
undisturbed. -/
theorem undisturbed_of_settled (events : List Event) :
    EveryStep (fun s e _ => Settled s e) init events →
      EveryStep (fun s e _ => Undisturbed s e) init events := by
  have hgeneral : ∀ s, Inv s → Alone s → (s.mounts = 0 → s = init) →
      EveryStep (fun s e _ => Settled s e) s events →
        EveryStep (fun s e _ => Undisturbed s e) s events := by
    induction events with
    | nil => exact fun _ _ _ _ _ => trivial
    | cons e rest ih =>
      rintro s hinv halone hstart ⟨t, hstep, hsettled, hrest⟩
      obtain ⟨hcondition, halone'⟩ := halone.step hinv hstep hsettled
      obtain ⟨hinv', -⟩ := hinv.step hstart hstep hcondition
      have hstart' : t.mounts = 0 → t = init := fun hzero =>
        absurd hzero (mounts_pos hstart hstep).ne'
      exact ⟨t, hstep, hcondition, ih t hinv' halone' hstart' hrest⟩
  refine hgeneral init .init ?_ (fun _ => rfl)
  intro _ k socket hsocket
  cases hsocket

end Connection

end RtlsStream.Live
