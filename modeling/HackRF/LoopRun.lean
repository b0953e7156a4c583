import Mathlib.Tactic

/-!
# Loops that may not end

A loop is a step which yields either the next state or a result.  It is run
with fuel, and returns a result if some amount of fuel gives one.  An
invariant holds of the state from which a result is reached; an invariant
under which a measure falls makes the loop return; an invariant under which
every step goes on keeps it from returning.
-/

namespace LoopRun

variable {State Result : Type*}

def run (step : State → State ⊕ Result) : ℕ → State → Option Result
  | 0, _ => none
  | fuel + 1, state =>
      match step state with
      | .inl next => run step fuel next
      | .inr result => some result

def Returns (step : State → State ⊕ Result) (state : State)
    (result : Result) : Prop :=
  ∃ fuel, run step fuel state = some result

variable {step : State → State ⊕ Result} {state : State} {result : Result}

theorem run_succ_of_inl {next : State} (hstep : step state = .inl next)
    (fuel : ℕ) : run step (fuel + 1) state = run step fuel next := by
  rw [run, hstep]

theorem run_succ_of_inr (hstep : step state = .inr result) (fuel : ℕ) :
    run step (fuel + 1) state = some result := by
  rw [run, hstep]

theorem returns_of_inr (hstep : step state = .inr result) :
    Returns step state result :=
  ⟨1, run_succ_of_inr hstep 0⟩

theorem Returns.of_inl {next : State} (hstep : step state = .inl next)
    (hreturns : Returns step next result) : Returns step state result := by
  obtain ⟨fuel, hrun⟩ := hreturns
  exact ⟨fuel + 1, (run_succ_of_inl hstep fuel).trans hrun⟩

/-- The step which ends the loop starts in the invariant. -/
theorem Returns.of_invariant (Inv : State → Prop) (Post : Result → Prop)
    (hkeep : ∀ state next, Inv state → step state = .inl next → Inv next)
    (hpost : ∀ state result, Inv state → step state = .inr result →
      Post result)
    (hreturns : Returns step state result) (hinv : Inv state) :
    Post result := by
  obtain ⟨fuel, hrun⟩ := hreturns
  induction fuel generalizing state with
  | zero => simp [run] at hrun
  | succ fuel ih =>
      cases hstep : step state with
      | inl next =>
          rw [run_succ_of_inl hstep] at hrun
          exact ih (hkeep state next hinv hstep) hrun
      | inr ended =>
          rw [run_succ_of_inr hstep, Option.some.injEq] at hrun
          exact hrun ▸ hpost state ended hinv hstep

theorem exists_returns_of_measure (Inv : State → Prop) (measure : State → ℕ)
    (hstep : ∀ state, Inv state →
      (∃ next, step state = .inl next ∧ Inv next ∧
        measure next < measure state) ∨
      ∃ result, step state = .inr result)
    (hinv : Inv state) : ∃ result, Returns step state result := by
  induction hsize : measure state using Nat.strong_induction_on
    generalizing state with
  | _ size ih =>
      subst size
      rcases hstep state hinv with ⟨next, hnext, hinv', hless⟩ | ⟨ended, hended⟩
      · obtain ⟨result, hreturns⟩ := ih (measure next) hless hinv' rfl
        exact ⟨result, hreturns.of_inl hnext⟩
      · exact ⟨ended, returns_of_inr hended⟩

theorem not_returns_of_invariant (Inv : State → Prop)
    (hgoes : ∀ state, Inv state → ∃ next, step state = .inl next ∧ Inv next)
    (hinv : Inv state) : ¬ Returns step state result := by
  intro hreturns
  refine hreturns.of_invariant Inv (fun _ => False) ?_ ?_ hinv
  · intro state next hinv hstep
    obtain ⟨other, hother, hnext⟩ := hgoes state hinv
    obtain rfl := Sum.inl.inj (hstep.symm.trans hother)
    exact hnext
  · intro state result hinv hstep
    obtain ⟨other, hother, -⟩ := hgoes state hinv
    rw [hstep] at hother
    cases hother

end LoopRun
