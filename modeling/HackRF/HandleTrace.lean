import HackRF.EventRun

/-!
# Traces of handles

A program acquires handles, uses them and releases them.  Its trace is
disciplined if every handle which it uses or releases has been acquired and
not been released since; a null handle may not be used at all.  In a
disciplined trace no handle is released more often than it was acquired.
-/

namespace HandleTrace

variable {Handle : Type*} [DecidableEq Handle]

/-- What a program does with a handle; `none` is the null handle. -/
inductive Action (Handle : Type*) where
  | acquire (handle : Handle)
  | use (handle : Option Handle)
  | release (handle : Option Handle)
  deriving DecidableEq

/-- The handles held after an action, if the discipline allows it. -/
def step (held : List Handle) : Action Handle → Option (List Handle)
  | .acquire handle => some (handle :: held)
  | .use handle => if ∃ h ∈ held, handle = some h then some held else none
  | .release none => none
  | .release (some handle) =>
      if handle ∈ held then some (held.erase handle) else none

def Disciplined (held : List Handle) (trace : List (Action Handle)) : Prop :=
  ∃ final, EventRun.run step held trace = some final

variable {held : List Handle} {trace : List (Action Handle)}

theorem disciplined_use_cons {handle : Option Handle} :
    Disciplined held (.use handle :: trace) ↔
      (∃ h ∈ held, handle = some h) ∧ Disciplined held trace := by
  unfold Disciplined
  by_cases hheld : ∃ h ∈ held, handle = some h
  · simp [step, hheld]
  · simp [step, hheld]

theorem disciplined_append {before after : List (Action Handle)}
    {middle : List Handle}
    (hbefore : EventRun.run step held before = some middle) :
    Disciplined held (before ++ after) ↔ Disciplined middle after := by
  unfold Disciplined
  rw [EventRun.run_append, hbefore]
  rfl

theorem Disciplined.of_append {before after : List (Action Handle)}
    (hdisciplined : Disciplined held (before ++ after)) :
    Disciplined held before := by
  obtain ⟨final, hrun⟩ := hdisciplined
  rw [EventRun.run_append] at hrun
  obtain ⟨middle, hbefore, -⟩ := Option.bind_eq_some_iff.mp hrun
  exact ⟨middle, hbefore⟩

theorem run_uses {handle : Handle} (hheld : handle ∈ held) (n : ℕ) :
    EventRun.run step held (List.replicate n (.use (some handle))) =
      some held := by
  induction n with
  | zero => rfl
  | succ n ih => simp [List.replicate_succ, step, hheld, ih]

theorem run_acquires (acquired : List Handle) :
    EventRun.run step held (acquired.map .acquire) =
      some (acquired.reverse ++ held) := by
  induction acquired generalizing held with
  | nil => rfl
  | cons handle rest ih => simp [step, ih]

/-- Releasing handles which are held, each of them once. -/
theorem run_releases {released : List Handle} (hheld : held.Nodup)
    (hreleased : released.Nodup) (hsubset : released ⊆ held) :
    EventRun.run step held (released.map fun handle => .release (some handle)) =
      some (held.filter fun handle => handle ∉ released) := by
  induction released generalizing held with
  | nil => simp
  | cons handle rest ih =>
      obtain ⟨hother, hrest⟩ := List.nodup_cons.mp hreleased
      have hmem : handle ∈ held := hsubset List.mem_cons_self
      have hleft : rest ⊆ held.erase handle := by
        intro h hh
        rw [hheld.mem_erase_iff]
        exact ⟨fun hsame => hother (hsame ▸ hh),
          hsubset (List.mem_cons_of_mem _ hh)⟩
      rw [List.map_cons, EventRun.run_cons, step, if_pos hmem,
        Option.bind_some, ih (hheld.erase handle) hrest hleft,
        hheld.erase_eq_filter, List.filter_filter]
      congr 1
      apply List.filter_congr
      intro h _
      rw [Bool.eq_iff_iff]
      simp [and_comm]

theorem step_count {action : Action Handle} {next : List Handle}
    (hstep : step held action = some next) (handle : Handle) :
    next.count handle + [action].count (.release (some handle)) =
      held.count handle + [action].count (.acquire handle) := by
  cases action with
  | acquire acquired =>
      simp only [step, Option.some.injEq] at hstep
      subst next
      by_cases hsame : acquired = handle <;> simp [hsame]
  | use used =>
      simp only [step, Option.ite_none_right_eq_some, Option.some.injEq]
        at hstep
      simp [hstep.2]
  | release released =>
      cases released with
      | none => simp [step] at hstep
      | some released =>
          simp only [step, Option.ite_none_right_eq_some, Option.some.injEq]
            at hstep
          obtain ⟨hheld, rfl⟩ := hstep
          by_cases hsame : released = handle
          · subst hsame
            have hpos := List.count_pos_iff.mpr hheld
            simp only [List.count_erase_self, List.count_singleton_self]
            simp
            omega
          · rw [List.count_erase_of_ne (Ne.symm hsame)]
            simp [hsame]

theorem run_count {final : List Handle}
    (hrun : EventRun.run step held trace = some final) (handle : Handle) :
    final.count handle + trace.count (.release (some handle)) =
      held.count handle + trace.count (.acquire handle) := by
  induction trace generalizing held with
  | nil =>
      simp only [EventRun.run_nil, Option.some.injEq] at hrun
      simp [hrun]
  | cons action rest ih =>
      obtain ⟨next, hnext, hrest⟩ := Option.bind_eq_some_iff.mp hrun
      have hhead := step_count hnext handle
      have htail := ih hrest
      have hcons : ∀ counted : Action Handle,
          (action :: rest).count counted =
            [action].count counted + rest.count counted := by
        intro counted
        rw [← List.count_append, List.singleton_append]
      rw [hcons, hcons]
      omega

/-- No handle is released more often than it was acquired. -/
theorem Disciplined.releases_le (hdisciplined : Disciplined [] trace)
    (handle : Handle) :
    trace.count (.release (some handle)) ≤ trace.count (.acquire handle) := by
  obtain ⟨final, hrun⟩ := hdisciplined
  have hcount := run_count hrun handle
  rw [List.count_nil] at hcount
  omega

end HandleTrace
