import HackRF.HandleTrace
import HackRF.LibraryCalls

/-!
# What a failed device set-up leaves behind

`hackrf_open_setup` is handed an open USB handle, claims the interface and
allocates the device record, the transfer array and the transfers.  Each of
its failures undoes what came before by hand.  The undo of a failure inside
`allocate_transfers` frees the record without the transfers which hang on it.
-/

namespace HackRF

def ResourceEvent.action : ResourceEvent → HandleTrace.Action Resource
  | .acquire resource => .acquire resource
  | .release resource => .release (some resource)

/-- A call has given back the USB handle it was passed and everything it
acquired, each exactly once and nothing too early, and has left the caller's
pointer and the counter alone. -/
structure Library.UndoneBy (lib : Library) (result : OpenResult) : Prop where
  releasedOnce : ∀ resource,
    resource = .usbHandle ∨ .acquire resource ∈ result.events →
      result.events.count (.release resource) = 1
  disciplined : HandleTrace.Disciplined [.usbHandle]
    (result.events.map ResourceEvent.action)
  device : result.device = none
  openDevices : result.library.openDevices = lib.openDevices

structure SetupOutcomes.FailsInTransfers (outs : SetupOutcomes) : Prop where
  configuration :
    setHackrfConfiguration usbConfigStandard outs.configuration = .success
  claim : outs.claim = true
  record : outs.record = true
  array : outs.transfers.array = true
  transfer : ∃ index, outs.transfers.transfer index = false

/-! ## The transfers -/

theorem allocateLoop_events_acquire (outs : AllocateOutcomes)
    (indices : List TransferIndex) {event : ResourceEvent}
    (hevent : event ∈ (allocateLoop outs indices).2) :
    ∃ index, event = .acquire (.transfer index) := by
  induction indices with
  | nil => simp [allocateLoop] at hevent
  | cons index rest ih =>
      rw [allocateLoop] at hevent
      split_ifs at hevent with houts
      · rcases List.mem_cons.mp hevent with rfl | hrest
        · exact ⟨index, rfl⟩
        · exact ih hrest
      · simp at hevent

theorem allocateTransfers_cases (outs : AllocateOutcomes) :
    (outs.array = false ∧ allocateTransfers false outs = (.noMem, [])) ∨
      (outs.array = true ∧ ∃ code events,
        allocateTransfers false outs =
          (code, .acquire .transferArray :: events) ∧
        (∀ event ∈ events, ∃ index, event = .acquire (.transfer index)) ∧
        (code = .success ↔ ∀ index, outs.transfer index = true)) := by
  cases harray : outs.array with
  | false => exact .inl ⟨rfl, by simp [allocateTransfers, harray]⟩
  | true =>
      right
      have hloop :=
        allocateLoop_success_iff outs (List.finRange transferCount)
      refine ⟨rfl, (allocateLoop outs (List.finRange transferCount)).1,
        (allocateLoop outs (List.finRange transferCount)).2, ?_, ?_, ?_⟩
      · simp [allocateTransfers, harray]
      · intro event hevent
        exact allocateLoop_events_acquire outs _ hevent
      · simpa using hloop

namespace Library

variable {outs : SetupOutcomes} {lib : Library}

/-! ## The failures of the set-up -/

theorem undoneBy_close (code : HackrfError) (lib : Library) :
    lib.UndoneBy ⟨code, none, [.release .usbHandle], lib⟩ where
  releasedOnce := by
    intro resource hheld
    simp only [List.mem_singleton, reduceCtorEq, or_false] at hheld
    subst resource
    rfl
  disciplined := ⟨[], rfl⟩
  device := rfl
  openDevices := rfl

theorem undoneBy_unclaim (lib : Library) :
    lib.UndoneBy ⟨.noMem, none, [.acquire .interface, .release .interface,
      .release .usbHandle], lib⟩ where
  releasedOnce := by
    intro resource hheld
    simp only [List.mem_cons, ResourceEvent.acquire.injEq, reduceCtorEq,
      List.not_mem_nil, or_false] at hheld
    rcases hheld with rfl | rfl <;> rfl
  disciplined := ⟨[], rfl⟩
  device := rfl
  openDevices := rfl

theorem undoneBy_freeRecord (lib : Library) :
    lib.UndoneBy ⟨.noMem, none, [.acquire .interface, .acquire .record,
      .release .record, .release .interface, .release .usbHandle], lib⟩ where
  releasedOnce := by
    intro resource hheld
    simp only [List.mem_cons, ResourceEvent.acquire.injEq, reduceCtorEq,
      List.not_mem_nil, or_false] at hheld
    rcases hheld with rfl | rfl | rfl <;> rfl
  disciplined := ⟨[], rfl⟩
  device := rfl
  openDevices := rfl

/-- If a transfer cannot be allocated, the transfer array at least is leaked. -/
theorem not_undoneBy_of_failsInTransfers (hfails : outs.FailsInTransfers)
    (lib : Library) :
    (lib.hackrfOpenSetup outs).code ≠ .success ∧
      ¬ lib.UndoneBy (lib.hackrfOpenSetup outs) := by
  rcases allocateTransfers_cases outs.transfers with
    ⟨harray, -⟩ | ⟨-, code, events, halloc, hevents, hcode⟩
  · simp [hfails.array] at harray
  · have hcode : code ≠ .success := by
      obtain ⟨index, hindex⟩ := hfails.transfer
      intro hsuccess
      simp [hcode.mp hsuccess index] at hindex
    have hsetup : lib.hackrfOpenSetup outs = {
        code := .noMem
        device := none
        events := [.acquire .interface, .acquire .record] ++
          .acquire .transferArray :: events ++
          [.release .record, .release .interface, .release .usbHandle]
        library := lib } := by
      unfold hackrfOpenSetup
      rw [hfails.configuration, hfails.claim, hfails.record, halloc]
      cases code <;> first | rfl | exact absurd rfl hcode
    rw [hsetup]
    refine ⟨by simp, fun hundone => ?_⟩
    -- the events of the allocation are acquisitions, and the undo names
    -- neither the array nor a transfer
    have hnone : (.release .transferArray : ResourceEvent) ∉ events := by
      intro hrelease
      obtain ⟨index, hindex⟩ := hevents _ hrelease
      cases hindex
    have honce := hundone.releasedOnce .transferArray (.inr (by simp))
    simp [List.count_append, List.count_eq_zero_of_not_mem hnone] at honce

theorem undoneBy_of_not_failsInTransfers (hfails : ¬ outs.FailsInTransfers)
    (hcode : (lib.hackrfOpenSetup outs).code ≠ .success) :
    lib.UndoneBy (lib.hackrfOpenSetup outs) := by
  unfold hackrfOpenSetup at hcode ⊢
  cases hconfig : setHackrfConfiguration usbConfigStandard outs.configuration
  case success =>
    rw [hconfig] at hcode
    cases hclaim : outs.claim with
    | false => simpa [hclaim] using undoneBy_close .libusb lib
    | true =>
        cases hrecord : outs.record with
        | false => simpa [hclaim, hrecord] using undoneBy_unclaim lib
        | true =>
            simp only [hclaim, hrecord, ↓reduceIte] at hcode ⊢
            rcases allocateTransfers_cases outs.transfers with
              ⟨-, halloc⟩ | ⟨harray, code, events, halloc, -, hiff⟩
            · rw [halloc]
              exact undoneBy_freeRecord lib
            · rw [halloc] at hcode
              refine absurd ⟨hconfig, hclaim, hrecord, harray, ?_⟩ hfails
              by_contra hall
              push Not at hall
              rw [hiff.mpr fun index => by simpa using hall index] at hcode
              exact hcode rfl
  all_goals exact undoneBy_close _ lib

end Library

/-- A set-up which fails has undone everything exactly if it is not the
allocation of a transfer that failed. -/
theorem hackrfOpenSetup_undone_iff (outs : SetupOutcomes) (lib : Library) :
    ((lib.hackrfOpenSetup outs).code ≠ .success →
        lib.UndoneBy (lib.hackrfOpenSetup outs)) ↔
      ¬ outs.FailsInTransfers := by
  constructor
  · intro hundone hfails
    obtain ⟨hcode, hleaks⟩ :=
      Library.not_undoneBy_of_failsInTransfers hfails lib
    exact hleaks (hundone hcode)
  · exact fun hfails hcode =>
      Library.undoneBy_of_not_failsInTransfers hfails hcode

def SetupOutcomes.thirdTransferFails : SetupOutcomes where
  configuration := ⟨some 1, ⟨true, []⟩, true, ⟨true, []⟩⟩
  claim := true
  record := true
  transfers := ⟨true, fun index => index ≠ 2⟩

/-- The array and the two transfers in it are never freed. -/
theorem hackrfOpenSetup_leaks_transfers :
    (Library.initial.hackrfOpenSetup .thirdTransferFails).code = .noMem ∧
      ¬ Library.initial.UndoneBy
        (Library.initial.hackrfOpenSetup .thirdTransferFails) ∧
      ∀ resource ∈ [.transferArray, .transfer 0, .transfer 1],
        .acquire resource ∈
          (Library.initial.hackrfOpenSetup .thirdTransferFails).events ∧
        .release resource ∉
          (Library.initial.hackrfOpenSetup .thirdTransferFails).events := by
  refine ⟨by decide, fun hundone => ?_, by decide⟩
  have honce := hundone.releasedOnce .transferArray (.inr (by decide))
  exact absurd honce (by decide)

end HackRF
