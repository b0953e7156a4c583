import Mathlib.Tactic

/-!
# Runs of event-driven systems

A system is a partial step function `State → Event → Option State`: `none`
says that the event is not enabled.  A run executes a list of events.  Two
kinds of statement are made about runs, and this file has the induction rule
for each of them: a property of every state a run reaches, and a property of
every step a run takes.  The rules also come relative to a condition on the
steps, and for a product of components of which each event moves only one.
-/

namespace EventRun

variable {State Event : Type*}

/-- Execute the events in order; the run is undefined at the first event which
is not enabled. -/
def run (step : State → Event → Option State) :
    State → List Event → Option State
  | state, [] => some state
  | state, event :: rest =>
      (step state event).bind fun next => run step next rest

/-- `P` holds of every step which the run takes. -/
def Along (step : State → Event → Option State)
    (P : State → Event → State → Prop) : State → List Event → Prop
  | _, [] => True
  | state, event :: rest =>
      ∀ next, step state event = some next →
        P state event next ∧ Along step P next rest

variable {step : State → Event → Option State}

instance decidableAlong (P : State → Event → State → Prop)
    [∀ state event next, Decidable (P state event next)] :
    ∀ (state : State) (events : List Event),
      Decidable (Along step P state events)
  | _, [] => isTrue trivial
  | state, event :: rest =>
      match hnext : step state event with
      | none => isTrue fun next hsome => by simp [hnext] at hsome
      | some next =>
          match decidableAlong P next rest with
          | isTrue htail =>
              if hP : P state event next then
                isTrue fun next' hsome => by
                  obtain rfl : next = next' :=
                    Option.some.inj (hnext.symm.trans hsome)
                  exact ⟨hP, htail⟩
              else isFalse fun hall => hP (hall next hnext).1
          | isFalse htail => isFalse fun hall => htail (hall next hnext).2

@[simp] theorem run_nil (state : State) : run step state [] = some state := rfl

@[simp] theorem run_cons (state : State) (event : Event) (rest : List Event) :
    run step state (event :: rest) =
      (step state event).bind fun next => run step next rest := rfl

@[simp] theorem along_nil
    (P : State → Event → State → Prop) (state : State) :
    Along step P state [] := trivial

@[simp] theorem along_cons
    (P : State → Event → State → Prop) (state : State) (event : Event)
    (rest : List Event) :
    Along step P state (event :: rest) ↔
      ∀ next, step state event = some next →
        P state event next ∧ Along step P next rest := Iff.rfl

theorem along_of_forall {P : State → Event → State → Prop}
    {events : List Event}
    (hall : ∀ event ∈ events, ∀ state next, P state event next)
    (state : State) : Along step P state events := by
  induction events generalizing state with
  | nil => trivial
  | cons event rest ih =>
      obtain ⟨hevent, hrest⟩ := List.forall_mem_cons.mp hall
      exact fun next _ => ⟨hevent state next, ih hrest next⟩

theorem run_append (state : State) (before after : List Event) :
    run step state (before ++ after) =
      (run step state before).bind fun middle => run step middle after := by
  induction before generalizing state with
  | nil => simp
  | cons event rest ih =>
      simp only [List.cons_append, run_cons]
      cases step state event with
      | none => rfl
      | some next => simpa using ih next

/-! ## Invariants -/

/-- An invariant kept by every step which meets `C` holds at the end of every
run all of whose steps meet `C`. -/
theorem invariant_of_along
    {C : State → Event → State → Prop} (Inv : State → Prop)
    (hstep : ∀ state event next,
      step state event = some next → C state event next →
        Inv state → Inv next)
    {state final : State} {events : List Event}
    (hinv : Inv state) (halong : Along step C state events)
    (hrun : run step state events = some final) :
    Inv final := by
  induction events generalizing state with
  | nil =>
      simp only [run_nil, Option.some.injEq] at hrun
      exact hrun ▸ hinv
  | cons event rest ih =>
      obtain ⟨next, hnext, hrest⟩ := Option.bind_eq_some_iff.mp hrun
      obtain ⟨hC, htail⟩ := halong next hnext
      exact ih (hstep state event next hnext hC hinv) htail hrest

theorem invariant_of_run
    (Inv : State → Prop)
    (hstep : ∀ state event next,
      step state event = some next → Inv state → Inv next)
    {state final : State} {events : List Event}
    (hinv : Inv state) (hrun : run step state events = some final) :
    Inv final := by
  have halong : Along step (fun _ _ _ => True) state events :=
    along_of_forall (fun _ _ _ _ => trivial) state
  exact invariant_of_along Inv
    (fun state event next hnext _ => hstep state event next hnext)
    hinv halong hrun

/-- If, as long as the invariant holds, every step which meets `C` keeps it
and pays its cost out of a potential, then the potential bounds the cost of a
run all of whose steps meet `C`. -/
theorem cost_le_of_along
    {C : State → Event → State → Prop} (Inv : State → Prop)
    (potential : State → ℕ) (cost : Event → ℕ)
    (hstep : ∀ state event next,
      step state event = some next → C state event next → Inv state →
        Inv next ∧ potential next + cost event ≤ potential state)
    {state final : State} {events : List Event}
    (hinv : Inv state) (halong : Along step C state events)
    (hrun : run step state events = some final) :
    potential final + (events.map cost).sum ≤ potential state := by
  induction events generalizing state with
  | nil =>
      simp only [run_nil, Option.some.injEq] at hrun
      simp [hrun]
  | cons event rest ih =>
      obtain ⟨next, hnext, hrest⟩ := Option.bind_eq_some_iff.mp hrun
      obtain ⟨hC, htail⟩ := halong next hnext
      obtain ⟨hkept, hpaid⟩ := hstep state event next hnext hC hinv
      have hlater := ih hkept htail hrest
      simp only [List.map_cons, List.sum_cons]
      omega

/-! ## Progress -/

/-- If every state which has the invariant and is not done has an allowed step
which keeps the invariant and lowers a rank, then a run of allowed steps, no
longer than the rank, leads to a state which is done. -/
theorem exists_run_of_progress
    (Inv Done : State → Prop) (Allowed : Event → Prop) (rank : State → ℕ)
    (hprogress : ∀ state, Inv state → ¬Done state →
      ∃ event next, Allowed event ∧ step state event = some next ∧
        Inv next ∧ rank next < rank state)
    {state : State} (hinv : Inv state) :
    ∃ events final, (∀ event ∈ events, Allowed event) ∧
      events.length ≤ rank state ∧
      run step state events = some final ∧ Done final := by
  induction hrank : rank state using Nat.strong_induction_on
    generalizing state with
  | h bound ih =>
      by_cases hdone : Done state
      · exact ⟨[], state, by simp, by simp, rfl, hdone⟩
      · obtain ⟨event, next, hallowed, hnext, hkept, hlower⟩ :=
          hprogress state hinv hdone
        obtain ⟨rest, final, hrest, hlength, hrun, hfinal⟩ :=
          ih (rank next) (hrank ▸ hlower) hkept rfl
        refine ⟨event :: rest, final, ?_, ?_, ?_, hfinal⟩
        · exact List.forall_mem_cons.mpr ⟨hallowed, hrest⟩
        · simp only [List.length_cons]
          omega
        · simp [hnext, hrun]

/-! ## Properties of the steps of a run -/

/-- If, as long as the invariant holds, a step meets `C` exactly when it meets
`P`, and a step meeting `C` keeps the invariant, then a run meets `C` at every
step exactly when it meets `P` at every step. -/
theorem along_iff_of_invariant
    {C P : State → Event → State → Prop} (Inv : State → Prop)
    (hiff : ∀ state event next,
      step state event = some next → Inv state →
        (C state event next ↔ P state event next))
    (hkeep : ∀ state event next,
      step state event = some next → C state event next →
        Inv state → Inv next)
    {state : State} (hinv : Inv state) (events : List Event) :
    Along step C state events ↔ Along step P state events := by
  induction events generalizing state with
  | nil => simp
  | cons event rest ih =>
      simp only [along_cons]
      refine forall_congr' fun next => forall_congr' fun hnext => ?_
      have hhead := hiff state event next hnext hinv
      constructor
      · rintro ⟨hC, htail⟩
        exact ⟨hhead.mp hC,
          (ih (hkeep state event next hnext hC hinv)).mp htail⟩
      · rintro ⟨hP, htail⟩
        have hC := hhead.mpr hP
        exact ⟨hC, (ih (hkeep state event next hnext hC hinv)).mpr htail⟩

/-- A property which no allowed step restores holds after every step of a run
of allowed steps at whose end it holds. -/
theorem along_of_final {P : State → Prop} {Allowed : Event → Prop}
    (hback : ∀ state event next, step state event = some next →
      Allowed event → P next → P state)
    {state final : State} {events : List Event}
    (hallowed : ∀ event ∈ events, Allowed event)
    (hrun : run step state events = some final) (hfinal : P final) :
    P state ∧
      Along step (fun _ event next => Allowed event ∧ P next) state events := by
  induction events generalizing state with
  | nil =>
      simp only [run_nil, Option.some.injEq] at hrun
      exact ⟨hrun ▸ hfinal, trivial⟩
  | cons event rest ih =>
      obtain ⟨next, hnext, hrest⟩ := Option.bind_eq_some_iff.mp hrun
      obtain ⟨hevent, hrestAllowed⟩ := List.forall_mem_cons.mp hallowed
      obtain ⟨hheld, htail⟩ := ih hrestAllowed hrest
      refine ⟨hback state event next hnext hevent hheld, ?_⟩
      intro other hother
      obtain rfl : next = other := Option.some.inj (hnext.symm.trans hother)
      exact ⟨⟨hevent, hheld⟩, htail⟩

/-! ## Outputs -/

section Outputs

variable {α : Type*}

/-- What the steps of a run put out, in their order. -/
def outputs (step : State → Event → Option State)
    (output : State → Event → List α) : State → List Event → List α
  | _, [] => []
  | state, event :: rest =>
      output state event ++
        match step state event with
        | some next => outputs step output next rest
        | none => []

theorem outputs_cons {output : State → Event → List α} {state next : State}
    {event : Event} (hnext : step state event = some next)
    (rest : List Event) :
    outputs step output state (event :: rest) =
      output state event ++ outputs step output next rest := by
  rw [outputs, hnext]

/-- If what a step takes in comes out of it or stays pending, in the same
order, then this is so for a run. -/
theorem outputs_conserved {C : State → Event → State → Prop}
    (pending : State → List α) {input output : State → Event → List α}
    (hstep : ∀ state event next,
      step state event = some next → C state event next →
        pending state ++ input state event =
          output state event ++ pending next)
    {state final : State} {events : List Event}
    (halong : Along step C state events)
    (hrun : run step state events = some final) :
    pending state ++ outputs step input state events =
      outputs step output state events ++ pending final := by
  induction events generalizing state with
  | nil =>
      simp only [run_nil, Option.some.injEq] at hrun
      simp [outputs, hrun]
  | cons event rest ih =>
      obtain ⟨next, hnext, hrest⟩ := Option.bind_eq_some_iff.mp hrun
      obtain ⟨hC, htail⟩ := halong next hnext
      rw [outputs_cons hnext, outputs_cons hnext, ← List.append_assoc,
        hstep state event next hnext hC, List.append_assoc,
        ih htail hrest, List.append_assoc]

/-- If a potential and what is paid in cover what every step draws, then they
cover what a run draws. -/
theorem count_outputs_le [DecidableEq α] (potential : State → ℕ)
    {drawn paid : State → Event → List α} {a : α}
    (hstep : ∀ state event next, step state event = some next →
      potential next + (drawn state event).count a ≤
        potential state + (paid state event).count a)
    {state final : State} {events : List Event}
    (hrun : run step state events = some final) :
    potential final + (outputs step drawn state events).count a ≤
      potential state + (outputs step paid state events).count a := by
  induction events generalizing state with
  | nil =>
      simp only [run_nil, Option.some.injEq] at hrun
      simp [outputs, hrun]
  | cons event rest ih =>
      obtain ⟨next, hnext, hrest⟩ := Option.bind_eq_some_iff.mp hrun
      have hhead := hstep state event next hnext
      have htail := ih hrest
      simp only [outputs_cons hnext, List.count_append]
      omega

theorem count_outputs_append [DecidableEq α]
    (first second : State → Event → List α) (a : α) (state : State)
    (events : List Event) :
    (outputs step (fun state event => first state event ++ second state event)
        state events).count a =
      (outputs step first state events).count a +
        (outputs step second state events).count a := by
  induction events generalizing state with
  | nil => rfl
  | cons event rest ih =>
      unfold outputs
      cases step state event with
      | none => simp
      | some next =>
          simp only [List.count_append, ih]
          omega

end Outputs

/-! ## Products -/

section Product

variable {ι Local : Type*}

/-- If a step changes only the component `i`, and changes it in a way which
keeps `Inv`, then it keeps `Inv` of every component. -/
theorem forall_component
    {Inv : Local → Prop} {before after : ι → Local} (i : ι)
    (hother : ∀ j, j ≠ i → after j = before j)
    (hself : Inv (before i) → Inv (after i))
    (hinv : ∀ j, Inv (before j)) (j : ι) :
    Inv (after j) := by
  by_cases hj : j = i
  · subst hj
    exact hself (hinv j)
  · rw [hother j hj]
    exact hinv j

end Product

end EventRun
