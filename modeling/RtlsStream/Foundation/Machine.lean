/-
  Foundation/Machine.lean --- state machines, their runs and the induction rules
  every concurrency argument of the development is an instance of.

  A machine is a set of initial states and a step relation; a run is a
  reflexive-transitive sequence of steps.  Four rules are proved once:

      Machine.invariant      what holds initially and is kept by every step
                             holds in every reachable state
      Machine.run_induction  what relates a state to itself and is carried over
                             one more step relates the two ends of every run
      Machine.Simulation     a step-by-step simulation maps reachable states to
                             reachable states
      StepsIn.length_le      a measure that every step lowers bounds the length
                             of a run

  The runs of a step function over a list of events have an induction rule of their
  own, `foldlM_induction`, whose invariant may speak of the events so far.
-/
import Mathlib.Logic.Relation
import Mathlib.Data.List.Induction

set_option autoImplicit false

namespace RtlsStream.Foundation

open Relation (ReflTransGen)

/-- Initial states and a step relation. -/
structure Machine (σ : Type*) where
  init : σ → Prop
  step : σ → σ → Prop

namespace Machine

variable {σ τ : Type*}

/-- Some run from an initial state ends in `s`. -/
def Reachable (M : Machine σ) (s : σ) : Prop :=
  ∃ s₀, M.init s₀ ∧ ReflTransGen M.step s₀ s

theorem Reachable.start {M : Machine σ} {s : σ} (h : M.init s) : M.Reachable s :=
  ⟨s, h, .refl⟩

theorem Reachable.next {M : Machine σ} {s t : σ} (h : M.Reachable s)
    (hstep : M.step s t) : M.Reachable t := by
  obtain ⟨s₀, h₀, hrun⟩ := h
  exact ⟨s₀, h₀, hrun.tail hstep⟩

/-- A run that starts in a reachable state stays among the reachable states. -/
theorem Reachable.trans {M : Machine σ} {s t : σ} (h : M.Reachable s)
    (hrun : ReflTransGen M.step s t) : M.Reachable t := by
  obtain ⟨s₀, h₀, hpre⟩ := h
  exact ⟨s₀, h₀, hpre.trans hrun⟩

/-- An inductive invariant holds in every reachable state.  The step premise may
use that the state it starts from is reachable, so invariants build on
each other. -/
theorem invariant {M : Machine σ} {P : σ → Prop} (h₀ : ∀ s, M.init s → P s)
    (hstep : ∀ s t, M.Reachable s → P s → M.step s t → P t)
    {s : σ} (h : M.Reachable s) : P s := by
  obtain ⟨s₀, hinit, hrun⟩ := h
  induction hrun with
  | refl => exact h₀ s₀ hinit
  | tail hpre hlast ih => exact hstep _ _ ⟨s₀, hinit, hpre⟩ ih hlast

/-- A relation that is reflexive on reachable states and is carried over each
further step relates the two ends of every run from a reachable state. -/
theorem run_induction {M : Machine σ} {R : σ → σ → Prop} {s : σ}
    (hs : M.Reachable s) (hrefl : R s s)
    (hstep : ∀ t u, M.Reachable t → R s t → M.step t u → R s u)
    {t : σ} (hrun : ReflTransGen M.step s t) : R s t := by
  induction hrun with
  | refl => exact hrefl
  | tail hpre hlast ih => exact hstep _ _ (hs.trans hpre) ih hlast

/-- `R` is a simulation of `M` by `N`: initial states are matched, and each step
of `M` from a reachable state is answered by a run of `N`. -/
structure Simulation (M : Machine σ) (N : Machine τ) (R : σ → τ → Prop) : Prop where
  init : ∀ s, M.init s → ∃ t, N.init t ∧ R s t
  step : ∀ s s' t, M.Reachable s → R s t → M.step s s' →
    ∃ t', ReflTransGen N.step t t' ∧ R s' t'

/-- A simulation matches every reachable state with a reachable one. -/
theorem Simulation.reachable {M : Machine σ} {N : Machine τ} {R : σ → τ → Prop}
    (sim : Simulation M N R) {s : σ} (h : M.Reachable s) :
    ∃ t, N.Reachable t ∧ R s t := by
  refine invariant (P := fun s => ∃ t, N.Reachable t ∧ R s t) ?_ ?_ h
  · intro s hinit
    obtain ⟨t, ht, hR⟩ := sim.init s hinit
    exact ⟨t, .start ht, hR⟩
  · rintro s s' hs ⟨t, ht, hR⟩ hstep
    obtain ⟨t', hrun, hR'⟩ := sim.step s s' t hs hR hstep
    exact ⟨t', ht.trans hrun, hR'⟩

end Machine

/-! ## Runs of a given length -/

/-- `t` is reached from `s` in `n` steps. -/
inductive StepsIn {σ : Type*} (step : σ → σ → Prop) : Nat → σ → σ → Prop
  | refl (s : σ) : StepsIn step 0 s s
  | tail {n : Nat} {s t u : σ} : StepsIn step n s t → step t u → StepsIn step (n + 1) s u

namespace StepsIn

variable {σ : Type*} {step : σ → σ → Prop} {P : σ → Prop} {n : Nat} {s t : σ}

/-- What each step keeps is kept by the run. -/
theorem keeps (hstep : ∀ s t, P s → step s t → P t) (hrun : StepsIn step n s t) (hs : P s) :
    P t := by
  induction hrun with
  | refl s => exact hs
  | tail _ hlast ih => exact hstep _ _ (ih hs) hlast

/-- Where every step lowers a measure, the measure bounds the length of a run. -/
theorem length_le (measure : σ → Nat) (hstep : ∀ s t, P s → step s t → P t)
    (hlower : ∀ s t, P s → step s t → measure t < measure s) (hrun : StepsIn step n s t)
    (hs : P s) : n + measure t ≤ measure s := by
  induction hrun with
  | refl s => simp
  | tail hpre hlast ih =>
    have hbound := ih hs
    have hdrop := hlower _ _ (hpre.keeps hstep hs) hlast
    omega

end StepsIn

/-! ## Runs over a list of events -/

section Events

variable {σ ε : Type*} {step : σ → ε → Option σ} {start : σ}

/-- The last event of a run. -/
theorem foldlM_concat {events : List ε} {e : ε} {t : σ} :
    (events ++ [e]).foldlM step start = some t ↔
      ∃ s, events.foldlM step start = some s ∧ step s e = some t := by
  simp [List.foldlM_append, Option.bind_eq_some_iff]

/-- What holds of no events at the start and is kept by one more event holds at the end
of every run. -/
theorem foldlM_induction {P : List ε → σ → Prop} (hstart : P [] start)
    (hstep : ∀ events s e t, events.foldlM step start = some s → P events s →
      step s e = some t → P (events ++ [e]) t)
    {events : List ε} {s : σ} (hrun : events.foldlM step start = some s) : P events s := by
  induction events using List.reverseRecOn generalizing s with
  | nil =>
    rw [← Option.some.inj hrun]
    exact hstart
  | append_singleton events e ih =>
    obtain ⟨t, hpre, hlast⟩ := foldlM_concat.mp hrun
    exact hstep events t e s hpre (ih hpre) hlast

end Events

end RtlsStream.Foundation
