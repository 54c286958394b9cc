/-
  Deployment/Run.lean --- broker, consumer, tables and any number of browsers at once.

  `Consumer.Delivery` has the broker, the consumer tasks and the tables, with redelivery;
  `Live.System` has one browser and takes commits and publishes as they come.  Here they
  run together: a commit of a task is the commit that the browsers' snapshots may see, and
  its `broadcast.publish` offers the envelope to the session of every browser.

  Each component is a projection of the whole (`toDelivery`, `toBrowser`), so what is true
  of it in every run of its own is true of it in every run of the whole.  The broker may
  deliver any message that is ready; `Deployment.Recover` holds it to its queue.
-/
import RtlsStream.Consumer.Delivery
import RtlsStream.Foundation.Recovery
import RtlsStream.Live.Monotone

set_option autoImplicit false

namespace RtlsStream.Deployment

open RtlsStream.Foundation RtlsStream.Python RtlsStream.Store RtlsStream.Consumer RtlsStream.Live
open RtlsStream.Consumer.Delivery (Accepted rowOfBody)

variable [Runtime] [Postgres]

/-! ## Messages -/

/-- The body decodes to the envelope, and the checks of `_on_message` let it through. -/
def Carries (body : Bytes) (e : LiveEnvelope) : Prop :=
  ∃ payload, examine body = .accepted e.envelope payload

theorem Carries.accepted {body : Bytes} {e : LiveEnvelope} (h : Carries body e) : Accepted body := by
  obtain ⟨payload, hexamine⟩ := h
  exact ⟨e.envelope, payload, hexamine⟩

theorem Carries.row {body : Bytes} {e : LiveEnvelope} (h : Carries body e) :
    rowOfBody body = some e.row := by
  obtain ⟨payload, hexamine⟩ := h
  rw [rowOfBody, hexamine]
  exact e.stored

/-- A body carries one envelope. -/
theorem Carries.unique {body : Bytes} {e e' : LiveEnvelope} (h : Carries body e)
    (h' : Carries body e') : e = e' := by
  obtain ⟨payload, hexamine⟩ := h
  obtain ⟨payload', hexamine'⟩ := h'
  obtain ⟨henvelope, -⟩ := Admission.accepted.inj (hexamine.symm.trans hexamine')
  have hpayload : e.payload = e'.payload := by
    have heq := e.payload_eq
    rw [henvelope, e'.payload_eq] at heq
    exact (Json.obj.inj (Option.some.inj heq)).symm
  have htag : e.tagId = e'.tagId := by
    have heq := e.tagId_eq
    rw [hpayload, e'.tagId_eq] at heq
    exact (Json.str.inj (Option.some.inj heq)).symm
  have hts : e.tsUtcMs = e'.tsUtcMs := by
    have heq := e.tsUtcMs_eq
    rw [hpayload, e'.tsUtcMs_eq] at heq
    exact (Json.int.inj (Option.some.inj heq)).symm
  have hrow : e.row = e'.row := by
    have heq := e.stored
    rw [henvelope, e'.stored] at heq
    exact (Option.some.inj heq).symm
  cases e
  cases e'
  cases henvelope
  cases hpayload
  cases htag
  cases hts
  cases hrow
  rfl

/-- The messages of the broker.  What can be stored of them has a string for its tag and an
integer for its time, as everything the receiver publishes. -/
structure Feed (μ : Type) where
  body : μ → Bytes
  live : ∀ m r, rowOfBody (body m) = some r → ∃ e, Carries (body m) e

/-! ## The whole -/

/-- A browser and its session. -/
structure Browser where
  session : Option Session
  client : Client

/-- `Broadcast.publish`, as one browser sees it -/
def Browser.offer (B : Browser) (e : LiveEnvelope) : Browser :=
  { B with session := B.session.map (·.offer e) }

/-- The broker with its consumer, and the browsers.  `committed` and `published` record what
has been. -/
structure State (μ β : Type) where
  delivery : Delivery.State μ
  committed : List LiveEnvelope
  published : List LiveEnvelope
  browser : β → Browser

variable {μ β : Type}

/-- What one browser has to do with. -/
def State.view (s : State μ β) (b : β) (pending : List LiveEnvelope) : Live.State where
  db := s.delivery.db
  committed := s.committed
  pending := pending
  published := s.published
  session := (s.browser b).session
  client := (s.browser b).client

variable [DecidableEq μ] [DecidableEq β] (feed : Feed μ)

/-- One step of the broker, of a task, or of a browser and its session. -/
inductive Step : State μ β → State μ β → Prop
  /-- no row is written and nothing is published -/
  | consumer {s : State μ β} {next : Delivery.State μ} : Delivery.Step feed.body s.delivery next →
      next.log = s.delivery.log →
      (∀ d m, next.task d = some (m, .broadcast) → s.delivery.task d = some (m, .broadcast)) →
      Step s { s with delivery := next }
  /-- a write commits, and returns or raises -/
  | commit {s : State μ β} {m : μ} {d id : Nat} {e : LiveEnvelope} {stage : Delivery.Stage} :
      s.delivery.task d = some (m, .writing) → Carries (feed.body m) e →
      stage = .committed ∨ stage = .failed →
      Step s { s with
        delivery := (s.delivery.persist m ⟨id, e.row⟩).at d m stage
        committed := s.committed ++ [e] }
  /-- `broadcast.publish` -/
  | broadcast {s : State μ β} {m : μ} {d : Nat} {e : LiveEnvelope} :
      s.delivery.task d = some (m, .committed) → Carries (feed.body m) e →
      Step s { s with
        delivery := s.delivery.at d m .broadcast
        published := e :: s.published
        browser := fun b => (s.browser b).offer e }
  /-- a step of `Live.System` that commits and publishes nothing -/
  | browser {s : State μ β} {b : β} {next : Live.State} : Live.Step (s.view b []) next →
      next.committed = s.committed →
      Step s { s with browser := Function.update s.browser b ⟨next.session, next.client⟩ }

/-- Nothing published, empty tables, and browsers that have just mounted. -/
def machine : Machine (State μ β) where
  init s := (Delivery.machine feed.body).init s.delivery ∧ s.committed = [] ∧ s.published = [] ∧
    ∀ b, s.browser b = ⟨none, ⟨.empty, false, false⟩⟩
  step := Step feed

/-! ## The consumer in it -/

variable {feed}

/-- The broker and the consumer do not notice the browsers. -/
theorem toDelivery :
    Machine.Simulation (machine feed (β := β)) (Delivery.machine feed.body)
      fun s t => t = s.delivery := by
  constructor
  case init =>
    rintro s ⟨hdelivery, -⟩
    exact ⟨s.delivery, hdelivery, rfl⟩
  case step =>
    rintro s s' _ - rfl hstep
    cases hstep with
    | consumer hnext => exact ⟨_, .single hnext, rfl⟩
    | commit htask hcarries hstage =>
      rcases hstage with rfl | rfl
      · exact ⟨_, .single (.commit htask hcarries.row), rfl⟩
      · exact ⟨_, .single (.commitUnseen htask hcarries.row), rfl⟩
    | broadcast htask => exact ⟨_, .single (.broadcast htask), rfl⟩
    | browser => exact ⟨_, .refl, rfl⟩

theorem safe {s : State μ β} (h : (machine feed).Reachable s) :
    Delivery.Safe feed.body s.delivery := by
  obtain ⟨_, hreach, rfl⟩ := toDelivery.reachable h
  exact Delivery.safe hreach

end RtlsStream.Deployment
