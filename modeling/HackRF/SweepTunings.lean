import HackRF.CaptureLength
import HackRF.RangePlanning
import HackRF.SweepCoverage

/-!
# What the service asks the device to sweep

The request which the service sends holds the ranges of all its calls so far,
each planned to whole steps.  The device is a parameter.  If it interleaves as
`rx_callback` relies on, going through the ranges in steps of 20 MHz and tuning
5 MHz higher a second time, the rows reach every requested frequency.
-/

namespace HackRF.Sweep

variable {F : Type*}

/-! ## The device -/

def pairs : List ℕ → List (ℕ × ℕ)
  | lo :: hi :: rest => (lo, hi) :: pairs rest
  | _ => []

theorem pairs_flatMap (lo hi : SweepRange → ℕ) (ranges : List SweepRange) :
    pairs (ranges.flatMap fun range => [lo range, hi range]) =
      ranges.map fun range => (lo range, hi range) := by
  induction ranges with
  | nil => rfl
  | cons range rest ih => exact congrArg _ ih

/-- One pass over the ranges in steps of 20 MHz, in Hz. -/
def SweepParameters.interleaved (parameters : SweepParameters) : List ℕ :=
  (pairs parameters.frequencies).flatMap fun range =>
    (List.range ((range.2 - range.1) / tuneStep)).flatMap fun s =>
      [(range.1 + tuneStep * s) * freqOneMhz,
        (range.1 + tuneStep * s + 5) * freqOneMhz]

/-- What the sweeper relies on: in the interleaved style the device divides a
step into two sub-steps, the second of which begins 5 MHz higher if the step is
20 MHz.  Nothing else about the device is known. -/
def Interleaves (device : SweepParameters → List ℕ) : Prop :=
  ∀ parameters : SweepParameters, parameters.style = 1 →
    parameters.stepWidth = tuneStep * freqOneMhz →
      device parameters = parameters.interleaved

/-- What the service asks for when it sweeps some ranges. -/
def serviceParameters (ranges : List SweepRange) : SweepParameters where
  stepWidth := tuneStep * freqOneMhz
  offset := offset
  style := 1
  frequencies := ranges.flatMap fun range =>
    [range.lo.toNat, range.plannedHi.toNat]
  numBytes := bytesPerBlock

theorem interleaved_serviceParameters (ranges : List SweepRange) :
    (serviceParameters ranges).interleaved =
      ranges.flatMap fun range => range.tunings.map (· * freqOneMhz) := by
  unfold SweepParameters.interleaved serviceParameters
  dsimp only
  rw [pairs_flatMap, List.flatMap_map]
  congr 1
  funext range
  have hsteps : (range.plannedHi.toNat - range.lo.toNat) / tuneStep =
      range.stepCount := by
    rw [range.plannedHi_toNat, Nat.add_sub_cancel_left]
    exact Nat.mul_div_cancel _ (show 0 < 20 by decide)
  rw [hsteps, SweepRange.tunings, List.map_flatMap]
  rfl

/-- Every frequency of a range is in a row of one of its tunings which
`rx_callback` does not filter out. -/
theorem SweepRange.exists_tuning (range : SweepRange) {x : ℝ}
    (hx : x ∈ Set.Ico ((range.lo.toNat : ℝ) * 1000000)
      (range.hi.toNat * 1000000)) :
    ∃ mhz ∈ range.tunings, mhz ≤ freqMaxMhz ∧
      ∃ row ∈ frequencyRows (UInt64.ofNat (mhz * freqOneMhz)),
        x ∈ rowInterval row := by
  obtain ⟨row, hrow, hmem⟩ := range.exists_row_of_mem hx
  obtain ⟨k, hk, rfl⟩ := List.mem_map.mp hrow
  obtain ⟨c, hc, hband, hkc⟩ := range.mem_rowCells.mp hk
  refine ⟨range.lo.toNat + 5 * c, ?_, hband, range.cellRow k, ?_, hmem⟩
  · rw [range.tunings_eq]
    exact List.mem_map_of_mem hc
  · rw [range.frequencyRows_cell]
    apply List.mem_map_of_mem
    rcases hkc with rfl | rfl <;> simp

/-! ## The ranges stored -/

theorem range_map_pairs (f : ℕ → ℕ) (lo hi : SweepRange → ℕ)
    (ranges : List SweepRange)
    (hpairs : ∀ k (hk : k < ranges.length),
      f (2 * k) = lo ranges[k] ∧ f (2 * k + 1) = hi ranges[k]) :
    (List.range (2 * ranges.length)).map f =
      ranges.flatMap fun range => [lo range, hi range] := by
  induction ranges using List.reverseRecOn with
  | nil => rfl
  | append_singleton before last ih =>
      have hbefore : ∀ k (hk : k < before.length),
          f (2 * k) = lo before[k] ∧ f (2 * k + 1) = hi before[k] := by
        intro k hk
        have hlast := hpairs k (by rw [List.length_append]; omega)
        rwa [List.getElem_append_left hk] at hlast
      obtain ⟨hlo, hhi⟩ := hpairs before.length (by simp)
      rw [List.getElem_append_right le_rfl] at hlo hhi
      simp only [Nat.sub_self, List.getElem_cons_zero] at hlo hhi
      rw [List.length_append, List.length_singleton, Nat.mul_succ,
        List.range_succ, List.range_succ, List.map_append, List.map_append,
        ih hbefore, List.flatMap_append]
      simp [hlo, hhi]

namespace Globals

variable {globals next : Globals F} {ranges : List SweepRange}

/-- The ranges which have been stored, planned or still to be planned. -/
structure Stores (ranges : List SweepRange) (globals : Globals F) : Prop where
  numRanges : globals.numRanges = ranges.length
  lo : ∀ k (hk : k < ranges.length),
    globals.frequencies (2 * k) = ranges[k].lo
  hi : ∀ k (hk : k < ranges.length),
    plannedEnd ranges[k].lo.toNat (globals.frequencies (2 * k + 1)).toNat =
      ranges[k].plannedHi.toNat

theorem Stores.congr (hstores : globals.Stores ranges)
    (hranges : next.numRanges = globals.numRanges)
    (hfrequencies : next.frequencies = globals.frequencies) :
    next.Stores ranges := by
  constructor
  · rw [hranges, hstores.numRanges]
  · rw [hfrequencies]
    exact hstores.lo
  · rw [hfrequencies]
    exact hstores.hi

theorem plannedEnd_range (range : SweepRange) :
    plannedEnd range.lo.toNat range.hi.toNat = range.plannedHi.toNat :=
  range.plannedHi_toNat.symm

theorem Stores.appendRange (hstores : globals.Stores ranges)
    (range : SweepRange) :
    (globals.appendRange range.lo range.hi).Stores (ranges ++ [range]) := by
  have hnumRanges := hstores.numRanges
  have hcases : ∀ k, k < (ranges ++ [range]).length →
      k < ranges.length ∨ k = ranges.length := by
    intro k hk
    rw [List.length_append, List.length_singleton] at hk
    omega
  constructor
  · rw [List.length_append, List.length_singleton]
    exact congrArg (· + 1) hnumRanges
  · intro k hk
    unfold Globals.appendRange
    dsimp only
    rw [Function.update_of_ne (by omega), hnumRanges]
    rcases hcases k hk with hlt | rfl
    · rw [Function.update_of_ne (by omega), List.getElem_append_left hlt]
      exact hstores.lo k hlt
    · simp
  · intro k hk
    unfold Globals.appendRange
    dsimp only
    rw [hnumRanges]
    rcases hcases k hk with hlt | rfl
    · rw [Function.update_of_ne (by omega), Function.update_of_ne (by omega),
        List.getElem_append_left hlt]
      exact hstores.hi k hlt
    · simp [plannedEnd_range]

/-- Planning gives every range its planned upper end. -/
theorem Stores.planRanges (hstores : globals.Stores ranges)
    (hsound : globals.RangesSound) :
    globals.planRanges.Stores ranges ∧
      ∀ k (hk : k < ranges.length),
        globals.planRanges.frequencies (2 * k + 1) = ranges[k].plannedHi := by
  have hplanned := hsound.plannedFirst
  have hhi : ∀ k (hk : k < ranges.length),
      globals.planRanges.frequencies (2 * k + 1) = ranges[k].plannedHi := by
    intro k hk
    rw [← UInt16.toNat_inj,
      hplanned.hi k (by rw [hstores.numRanges]; exact hk), hstores.lo k hk]
    exact hstores.hi k hk
  refine ⟨⟨?_, ?_, ?_⟩, hhi⟩
  · rw [planRanges_numRanges, hstores.numRanges]
  · intro k hk
    rw [hplanned.lo]
    exact hstores.lo k hk
  · intro k hk
    rw [hhi k hk, ← plannedEnd_range, plannedEnd_plannedEnd]

/-- The range which a call stores, whether or not it is rejected after that. -/
def storedRange (args : HackrfSweepArgs) (globals : Globals F) :
    Option SweepRange :=
  match globals.checkRange args with
  | .error _ => none
  | .ok _ => acceptRange args.freqMin args.freqMax

variable {ops : SweepOps F} {args : HackrfSweepArgs} {outs : SweepOutcomes}
  {lib : Library}

theorem Stores.checkArguments (hstores : globals.Stores ranges)
    (ops : SweepOps F) (args : HackrfSweepArgs) :
    (globals.checkArguments ops args).2.Stores
        (ranges ++ (globals.storedRange args).toList) ∧
      (globals.checkArguments ops args).2.numSamples = globals.numSamples := by
  rcases globals.checkArguments_cases ops args with
    ⟨error, hcheck, hchecked⟩ |
    ⟨range, fftSize, window, haccept, hcheck, hchecked⟩
  · simp only [storedRange, hcheck, hchecked, Option.toList_none,
      List.append_nil]
    exact ⟨hstores, trivial⟩
  · simp only [storedRange, hcheck, haccept, Option.toList_some, hchecked]
    exact ⟨(hstores.appendRange range).congr rfl rfl, rfl⟩

theorem Stores.hackrfSweep (hstores : globals.Stores ranges)
    (hsound : globals.RangesSound) (ops : SweepOps F) (args : HackrfSweepArgs)
    (outs : SweepOutcomes) (lib : Library) :
    (globals.hackrfSweep ops args outs lib).globals.Stores
        (ranges ++ (globals.storedRange args).toList) ∧
      (globals.hackrfSweep ops args outs lib).globals.numSamples =
        globals.numSamples := by
  obtain ⟨hchecked, hsamples⟩ := hstores.checkArguments ops args
  rcases globals.hackrfSweep_globals ops args outs lib with
    ⟨error, -, hsweep⟩ | ⟨-, rx, fd, -, hsweep⟩
  · rw [hsweep]
    exact ⟨hchecked, hsamples⟩
  · have hplanned := (hchecked.planRanges (hsound.checkArguments ops args)).1
    rw [hsweep]
    exact ⟨hplanned.congr rfl rfl, prepared_numSamples⟩

/-- The parameters of a call that is set up after the ranges were planned. -/
theorem Stores.parameters (hstores : globals.Stores ranges)
    (hhi : ∀ k (hk : k < ranges.length),
      globals.frequencies (2 * k + 1) = ranges[k].plannedHi)
    (hroom : ranges.length ≤ maxSweepRanges)
    (hsamples : globals.numSamples = UInt32.ofNat samplesPerBlock) :
    globals.initSweepArgs.parameters = serviceParameters ranges := by
  have hcount : globals.initSweepArgs.numRanges.toInt = ranges.length := by
    rw [initSweepArgs, hstores.numRanges]
    exact Int32.toInt_ofNat_of_lt (by unfold maxSweepRanges at hroom; omega)
  have hlisted : globals.initSweepArgs.listed =
      (List.range (2 * ranges.length)).map fun k =>
        (globals.frequencies k).toNat := by
    unfold InitSweepArgs.listed
    rw [hcount, show ((ranges.length : ℤ) * 2).toNat = 2 * ranges.length by
      omega]
    apply List.map_congr_left
    intro k hk
    have hk := List.mem_range.mp hk
    rw [initSweepArgs, hstores.numRanges]
    simp [List.getD_eq_getElem?_getD, hk]
  have hfrequencies := range_map_pairs
    (fun k => (globals.frequencies k).toNat) (fun range => range.lo.toNat)
    (fun range => range.plannedHi.toNat) ranges
    (fun k hk => ⟨congrArg _ (hstores.lo k hk), congrArg _ (hhi k hk)⟩)
  unfold InitSweepArgs.parameters serviceParameters
  rw [hlisted, hfrequencies]
  simp only [initSweepArgs, hsamples]
  rfl

end Globals

namespace Service

variable {ops : SweepOps F} {service : Service F} {ranges : List SweepRange}

def storedRange (service : Service F) : Request → Option SweepRange
  | .sweep args _ => service.globals.storedRange args
  | _ => none

/-- The ranges stored in a run, in order. -/
def storedRanges (ops : SweepOps F) :
    Service F → List Request → List SweepRange
  | _, [] => []
  | service, request :: rest =>
      (service.storedRange request).toList ++
        storedRanges ops (service.step ops request) rest

/-- What a run keeps of its ranges and of the number of samples. -/
structure Remembers (ranges : List SweepRange) (service : Service F) :
    Prop where
  stores : service.globals.Stores ranges
  sound : service.globals.RangesSound
  samples : service.globals.numSamples = UInt32.ofNat samplesPerBlock

theorem Remembers.step (hremembers : service.Remembers ranges)
    (request : Request) :
    (service.step ops request).Remembers
      (ranges ++ (service.storedRange request).toList) := by
  have hsound := @step_rangesSound F ops service hremembers.sound request
  cases request with
  | signal =>
      simp only [storedRange, Option.toList_none, List.append_nil]
      exact ⟨hremembers.stores.congr rfl rfl, hsound, hremembers.samples⟩
  | «open» serialNumber outs =>
      obtain ⟨device, hopen⟩ := service.open_globals ops serialNumber outs
      simp only [storedRange, Option.toList_none, List.append_nil]
      refine ⟨?_, hsound, ?_⟩
      · rw [hopen]
        exact hremembers.stores.congr rfl rfl
      · rw [hopen]
        exact hremembers.samples
  | sweep args outs =>
      obtain ⟨hstores, hsamples⟩ := hremembers.stores.hackrfSweep
        hremembers.sound ops args outs service.library
      exact ⟨hstores, hsound, hsamples.trans hremembers.samples⟩

theorem Remembers.run (hremembers : service.Remembers ranges)
    (requests : List Request) :
    (service.run ops requests).Remembers
      (ranges ++ service.storedRanges ops requests) := by
  induction requests generalizing service ranges with
  | nil =>
      rw [storedRanges, List.append_nil]
      exact hremembers
  | cons request rest ih =>
      rw [storedRanges, ← List.append_assoc]
      exact ih (hremembers.step request)

theorem remembers_initial (zero : F) :
    (Service.initial zero).Remembers [] where
  stores := ⟨rfl, fun _ hk => absurd hk (Nat.not_lt_zero _),
    fun _ hk => absurd hk (Nat.not_lt_zero _)⟩
  sound := ⟨Nat.zero_le _, fun _ hk => absurd hk (Nat.not_lt_zero _)⟩
  samples := rfl

/-- A call that gets to `hackrf_init_sweep` passes the ranges stored so far and
its own. -/
theorem Remembers.initSweepArgs (hremembers : service.Remembers ranges)
    {args : HackrfSweepArgs} {outs : SweepOutcomes} {event : Event}
    {call : InitSweepArgs}
    (hevent : event ∈
      (service.globals.hackrfSweep ops args outs service.library).events)
    (hcall : event.initSweepArgs = some call) :
    ∃ range, acceptRange args.freqMin args.freqMax = some range ∧
      call.parameters = serviceParameters (ranges ++ [range]) ∧
      ∀ usb, call.Accepted usb ↔ HasInitSweep usb := by
  cases hcheck : (service.globals.checkArguments ops args).1 with
  | error error =>
      rw [Globals.hackrfSweep_of_error hcheck] at hevent
      rw [List.mem_singleton.mp hevent] at hcall
      cases hcall
  | ok fftSize =>
      obtain ⟨-, rfl⟩ := (Globals.initSweepArgs_hackrfSweep_iff hcheck).mp
        ⟨event, hevent, hcall⟩
      obtain ⟨hchecked, -⟩ := hremembers.stores.checkArguments ops args
      have hsound := hremembers.sound.checkArguments ops args
      have hstored : ∃ range,
          acceptRange args.freqMin args.freqMax = some range ∧
            service.globals.storedRange args = some range := by
        rcases service.globals.checkArguments_cases ops args with
          ⟨error, -, herror⟩ | ⟨range, _, _, haccept, hok, -⟩
        · rw [herror] at hcheck
          cases hcheck
        · exact ⟨range, haccept, by rw [Globals.storedRange, hok]; exact haccept⟩
      obtain ⟨range, haccept, hstored⟩ := hstored
      rw [hstored, Option.toList_some] at hchecked
      obtain ⟨hplanned, hhi⟩ := hchecked.planRanges hsound
      have hroom := hsound.planRanges.count
      rw [hplanned.numRanges] at hroom
      have hsamples : (service.globals.prepared ops args).numSamples =
          UInt32.ofNat samplesPerBlock :=
        Globals.prepared_numSamples.trans hremembers.samples
      refine ⟨range, haccept, hplanned.parameters hhi hroom hsamples, ?_⟩
      intro usb
      rw [Globals.prepared_accepted_iff hcheck, hremembers.samples]
      exact and_iff_left (by decide)

/-- A call without the request in the device's API version sends nothing. -/
theorem hackrfInitSweep_of_old {usb : Usb} (hold : ¬ HasInitSweep usb)
    (stack : ByteMemory.Memory) (call : InitSweepArgs) (s : ControlState) :
    (hackrfInitSweep usb stack call s).1 = .usbApiVersion ∧
      (hackrfInitSweep usb stack call s).2.sent = s.sent := by
  unfold hackrfInitSweep usbApiRequiredOut
  cases hdescriptor : usb.deviceDescriptor with
  | error result => exact ⟨rfl, rfl⟩
  | ok usbVersion =>
      have hversion : usbVersion < 0x0102 := by
        by_contra hnew
        exact hold ⟨usbVersion, hdescriptor, not_lt.mp hnew⟩
      dsimp only
      rw [if_pos hversion]
      exact ⟨rfl, rfl⟩

/-- In every run of the service, a call that gets to `hackrf_init_sweep` sends
nothing to a device that is too old for the request, and to another one the
ranges of all calls so far.  A device that interleaves then tunes, for every
frequency of these ranges, to one whose block `rx_callback` lets through and
which has that frequency in a row. -/
theorem tunings_of_run (ops : SweepOps F) (zero : F) (requests : List Request)
    (args : HackrfSweepArgs) (outs : SweepOutcomes) (event : Event)
    (call : InitSweepArgs)
    (hevent :
      let service := (Service.initial zero).run ops requests
      event ∈
        (service.globals.hackrfSweep ops args outs service.library).events)
    (hcall : event.initSweepArgs = some call)
    (device : SweepParameters → List ℕ) (hdevice : Interleaves device)
    (usb : Usb) (stack : ByteMemory.Memory) (s : ControlState) :
    ∃ range, acceptRange args.freqMin args.freqMax = some range ∧
      let ranges := (Service.initial zero).storedRanges ops requests ++ [range]
      (¬ HasInitSweep usb →
        (hackrfInitSweep usb stack call s).1 = .usbApiVersion ∧
          (hackrfInitSweep usb stack call s).2.sent = s.sent) ∧
      (HasInitSweep usb → ∃ transfer,
        (hackrfInitSweep usb stack call s).2.sent = s.sent ++ [transfer] ∧
          decodeInitSweep transfer = serviceParameters ranges ∧
          ∀ swept ∈ ranges, ∀ x ∈ Set.Ico ((swept.lo.toNat : ℝ) * 1000000)
              (swept.hi.toNat * 1000000),
            ∃ hz ∈ device (decodeInitSweep transfer),
              hz ≤ freqMaxMhz * freqOneMhz ∧
                ∃ row ∈ frequencyRows (UInt64.ofNat hz),
                  x ∈ rowInterval row) := by
  have hremembers := @Remembers.run F ops _ [] (remembers_initial zero) requests
  rw [List.nil_append] at hremembers
  obtain ⟨range, haccept, hparameters, haccepted⟩ :=
    hremembers.initSweepArgs hevent hcall
  refine ⟨range, haccept, ?_⟩
  intro ranges
  refine ⟨fun hold => hackrfInitSweep_of_old hold stack call s, fun hnew => ?_⟩
  have hcallAccepted := (haccepted usb).mpr hnew
  have hdecoded : decodeInitSweep (call.request stack) =
      serviceParameters ranges :=
    (hcallAccepted.encodedIn stack).decoded.trans hparameters
  refine ⟨call.request stack, ?_, hdecoded, ?_⟩
  · rw [hcallAccepted.hackrfInitSweep_eq, sendRequest_sent]
  · intro swept hswept x hx
    obtain ⟨mhz, hmhz, hband, row, hrow, hmem⟩ := swept.exists_tuning hx
    refine ⟨mhz * freqOneMhz, ?_, Nat.mul_le_mul_right _ hband, row, hrow, hmem⟩
    rw [hdecoded, hdevice _ rfl rfl, interleaved_serviceParameters]
    exact List.mem_flatMap.mpr ⟨swept, hswept, List.mem_map_of_mem hmhz⟩

/-- The first call sweeps 2400 to 2500 MHz, and 2450 MHz is in a row. -/
theorem tunings_of_run_first :
    let event : Event := .call none false
      (.initSweep [2400, 2500] 1 16384 20000000 7500000 .interleaved) .success
    ∃ call, event.initSweepArgs = some call ∧ ∃ transfer,
      (hackrfInitSweep obligingUsb (fun _ => 0) call ⟨0, []⟩).2.sent =
          [transfer] ∧
        ∃ hz ∈ (decodeInitSweep transfer).interleaved,
          hz ≤ freqMaxMhz * freqOneMhz ∧
            ∃ row ∈ frequencyRows (UInt64.ofNat hz),
              (2450000000 : ℝ) ∈ rowInterval row := by
  intro event
  obtain ⟨range, haccept, -, hsent⟩ := tunings_of_run (.forgetful .wrapping) ()
    [] sweepArgs endsAtOnce event _ (by decide) rfl
    SweepParameters.interleaved (fun _ _ _ => rfl) obligingUsb (fun _ => 0)
    ⟨0, []⟩
  obtain ⟨transfer, htransfer, -, hcovers⟩ :=
    hsent ⟨0x0104, rfl, by decide⟩
  have hrange : range.lo = 2400 ∧ range.hi = 2500 := by
    obtain rfl := Option.some.inj haccept
    exact ⟨rfl, rfl⟩
  refine ⟨_, rfl, transfer, htransfer, hcovers range (by simp) 2450000000 ?_⟩
  rw [hrange.1, hrange.2]
  norm_num [Set.mem_Ico, show (2400 : UInt16).toNat = 2400 from rfl,
    show (2500 : UInt16).toNat = 2500 from rfl]

end Service

end HackRF.Sweep
