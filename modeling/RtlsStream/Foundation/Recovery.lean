/-
  Foundation/Recovery.lean --- what a machine can still do, runs under a simulation, and
  machines that run along another.

  `M.CanReach s P` says that some run from `s` ends in a state with `P`: no choice made so
  far has ruled `P` out.  Possibilities compose one after the other (`CanReach.bind`), and a
  list of goals, each within reach and none undone on the way to another, can be met
  together (`CanReach.all`).

  A simulation carries runs over, not only reachable states (`Simulation.run`), so what
  relates the two ends of every run of the simulating machine can be read off it.

  `M.along view N` is `M` held to what `N` allows: whatever it reaches, both reach.  What `N`
  can reach, `M` can reach where it can follow each step (`CanReach.lift`).
-/
import RtlsStream.Foundation.Machine

set_option autoImplicit false

namespace RtlsStream.Foundation

open Relation (ReflTransGen)

namespace Machine

variable {σ τ ι ω : Type*} {M : Machine σ}

/-- Some run from `s` ends in a state with `P`. -/
def CanReach (M : Machine σ) (s : σ) (P : σ → Prop) : Prop :=
  ∃ t, ReflTransGen M.step s t ∧ P t

namespace CanReach

variable {P Q : σ → Prop} {s : σ}

theorem here (h : P s) : M.CanReach s P := ⟨s, .refl, h⟩

theorem next {t : σ} (hstep : M.step s t) (h : M.CanReach t P) : M.CanReach s P := by
  obtain ⟨u, hrun, hu⟩ := h
  exact ⟨u, hrun.head hstep, hu⟩

theorem mono (h : M.CanReach s P) (himp : ∀ t, P t → Q t) : M.CanReach s Q := by
  obtain ⟨t, hrun, ht⟩ := h
  exact ⟨t, hrun, himp t ht⟩

theorem bind (h : M.CanReach s P) (hrest : ∀ t, P t → M.CanReach t Q) : M.CanReach s Q := by
  obtain ⟨t, hrun, ht⟩ := h
  obtain ⟨u, hrun', hu⟩ := hrest t ht
  exact ⟨u, hrun.trans hrun', hu⟩

/-- What can be reached from a reachable state is reachable. -/
theorem reachable (h : M.CanReach s P) (hs : M.Reachable s) :
    M.CanReach s fun t => M.Reachable t ∧ P t := by
  obtain ⟨t, hrun, ht⟩ := h
  exact ⟨t, hrun, hs.trans hrun, ht⟩

/-- Goals that can each be met without undoing another can be met together. -/
theorem all {Inv : σ → Prop} {Good : ι → σ → Prop} (goals : List ι)
    (hone : ∀ i ∈ goals, ∀ s, Inv s →
      M.CanReach s fun t => Inv t ∧ Good i t ∧ ∀ j, Good j s → Good j t)
    (hs : Inv s) :
    M.CanReach s fun t => Inv t ∧ (∀ i ∈ goals, Good i t) ∧ ∀ j, Good j s → Good j t := by
  induction goals generalizing s with
  | nil => exact .here ⟨hs, by simp, fun _ h => h⟩
  | cons i rest ih =>
    refine (hone i List.mem_cons_self s hs).bind ?_
    rintro t ⟨ht, hgood, hkeeps⟩
    refine (ih (fun j hj => hone j (List.mem_cons_of_mem _ hj)) ht).mono ?_
    rintro u ⟨hu, hall, hkeeps'⟩
    refine ⟨hu, ?_, fun j hj => hkeeps' j (hkeeps j hj)⟩
    exact List.forall_mem_cons.mpr ⟨hkeeps' i hgood, hall⟩

/-- What a machine can reach, another that follows each of its steps can reach. -/
theorem lift {N : Machine τ} (view : σ → τ) (Inv : σ → Prop) {P : τ → Prop} {s : σ}
    (hstep : ∀ s u, Inv s → N.step (view s) u → ∃ t, M.step s t ∧ view t = u ∧ Inv t)
    (hs : Inv s) (h : N.CanReach (view s) P) : M.CanReach s fun t => Inv t ∧ P (view t) := by
  obtain ⟨u, hrun, hu⟩ := h
  suffices hfollow : ∃ t, ReflTransGen M.step s t ∧ view t = u ∧ Inv t by
    obtain ⟨t, hrun', rfl, ht⟩ := hfollow
    exact ⟨t, hrun', ht, hu⟩
  clear hu
  induction hrun with
  | refl => exact ⟨s, .refl, rfl, hs⟩
  | tail _ hlast ih =>
    obtain ⟨t, hrun', rfl, ht⟩ := ih
    obtain ⟨t', hstep', hview, ht'⟩ := hstep t _ ht hlast
    exact ⟨t', hrun'.tail hstep', hview, ht'⟩

end CanReach

/-- A simulation matches every run from a reachable state with a run. -/
theorem Simulation.run {N : Machine τ} {R : σ → τ → Prop} (sim : Simulation M N R)
    {s s' : σ} {t : τ} (hs : M.Reachable s) (hR : R s t) (hrun : ReflTransGen M.step s s') :
    ∃ t', ReflTransGen N.step t t' ∧ R s' t' := by
  refine run_induction (R := fun _ s' => ∃ t', ReflTransGen N.step t t' ∧ R s' t')
    hs ⟨t, .refl, hR⟩ ?_ hrun
  rintro u v hu ⟨t', hrun', hR'⟩ hstep
  obtain ⟨t'', hmore, hR''⟩ := sim.step u v t' hu hR' hstep
  exact ⟨t'', hrun'.trans hmore, hR''⟩

/-! ## Machines along another -/

/-- `M` with a record, whose steps, seen through `view`, are steps of `N` or change nothing
there. -/
def along (M : Machine σ) (view : σ → ω → τ) (N : Machine τ) : Machine (σ × ω) where
  init s := M.init s.1 ∧ N.init (view s.1 s.2)
  step s t := M.step s.1 t.1 ∧
    (N.step (view s.1 s.2) (view t.1 t.2) ∨ view t.1 t.2 = view s.1 s.2)

section Along

variable {view : σ → ω → τ} {N : Machine τ} {s : σ × ω}

theorem Reachable.along_left (h : (M.along view N).Reachable s) : M.Reachable s.1 := by
  obtain ⟨s₀, hinit, hrun⟩ := h
  exact (Reachable.start hinit.1).trans (hrun.lift Prod.fst fun _ _ hstep => hstep.1)

theorem Reachable.along_right (h : (M.along view N).Reachable s) : N.Reachable (view s.1 s.2) := by
  refine invariant (P := fun s => N.Reachable (view s.1 s.2)) ?_ ?_ h
  · rintro s ⟨-, hinit⟩
    exact .start hinit
  · rintro s t - hreach ⟨-, hstep | hsame⟩
    · exact hreach.next hstep
    · rwa [hsame]

end Along

end Machine

end RtlsStream.Foundation
