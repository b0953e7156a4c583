import HackRF.DeviceEnumeration

/-!
# The status check

`CheckHackRFStatus` initialises the library, obtains the device list and goes
through its devices, one open device at a time.  It returns early when the
list is empty and when a device which it has opened does not answer.
-/

namespace HackRF

/-! ## The function -/

/-- What libhackrf answers about an open device of the list. -/
structure StatusReads where
  boardId : HackrfError
  versionString : HackrfError
  usbApiVersion : HackrfError
  partidSerialno : HackrfError
  operacakeBoards : HackrfError
  stopRx : HackrfError
  stopTx : HackrfError

/-- All five requests are answered; the last one need not be supported. -/
def StatusReads.succeed (reads : StatusReads) : Bool :=
  reads.boardId == .success && reads.versionString == .success &&
    reads.usbApiVersion == .success && reads.partidSerialno == .success &&
      (reads.operacakeBoards == .success ||
        reads.operacakeBoards == .usbApiVersion)

/-- What is answered in one call of `CheckHackRFStatus`: about USB devices by
their position, about open devices by their slot in the list. -/
structure StatusOutcomes where
  libusbInit : Bool
  allocations : ListOutcomes
  devices : List UsbDevice
  stack : SerialMemory
  usb : ℕ → UsbOpenOutcomes
  reads : ℕ → StatusReads

inductive StatusResource where
  | deviceList
  | device (handle : DeviceHandle)
  deriving DecidableEq

/-- Whether `EXIT_SUCCESS` is returned, what was acquired and released, and the
library afterwards. -/
structure StatusReturn where
  success : Bool
  trace : List (HandleTrace.Action StatusResource)
  library : Library

namespace Library

/-- The remaining `n` iterations of the loop over the devices; `success` is
false if one of them returns from the function. -/
def statusLoop (list : DeviceList) (outs : StatusOutcomes) :
    ℕ → ℕ → Library → StatusReturn
  | 0, _, lib => ⟨true, [], lib⟩
  | n + 1, i, lib =>
      let result := list.openAt i true outs.usb lib
      if result.code = .success then
        let opened := result.device.toList.map fun handle =>
          HandleTrace.Action.acquire (StatusResource.device handle)
        if (outs.reads i).succeed then
          let (_, closed) := result.library.hackrfClose result.device
            (outs.reads i).stopRx (outs.reads i).stopTx
          let rest := statusLoop list outs n (i + 1) closed
          ⟨rest.success, opened ++
            .release (result.device.map .device) :: rest.trace, rest.library⟩
        else ⟨false, opened, result.library⟩
      else statusLoop list outs n (i + 1) result.library

/-- `CheckHackRFStatus`; undefined if `hackrf_device_list` returns `NULL`,
which is dereferenced. -/
def checkHackRFStatus (lib : Library) (outs : StatusOutcomes) :
    Option StatusReturn :=
  match lib.hackrfInit outs.libusbInit with
  | (.success, lib) =>
      match hackrfDeviceList outs.allocations outs.devices outs.stack with
      | none => none
      | some list =>
          if list.devicecount < 1 then
            some ⟨false, [.acquire .deviceList], lib⟩
          else
            let checked := lib.statusLoop list outs list.devicecount 0
            if checked.success then
              some ⟨true, .acquire .deviceList :: checked.trace ++
                [.release (some .deviceList)], checked.library.hackrfExit.2⟩
            else
              some ⟨false, .acquire .deviceList :: checked.trace,
                checked.library⟩
  | (_, lib) => some ⟨false, [], lib⟩

def checkStatus (lib : Library) (outs : StatusOutcomes) : Option Library :=
  (lib.checkHackRFStatus outs).map StatusReturn.library

end Library

/-! ## What a call leaves behind -/

/-- A call which returns has closed each device it opened and freed its list,
once each, and `open_devices` is what it was. -/
def Library.LeavesNothing (lib : Library) (outs : StatusOutcomes) : Prop :=
  ∀ ret, lib.checkHackRFStatus outs = some ret →
    EventRun.run HandleTrace.step [] ret.trace = some [] ∧
      ret.library.openDevices = lib.openDevices

def UsbOpenOutcomes.Opens (usb : UsbOpenOutcomes) : Prop :=
  usb.opened = true ∧ usb.setup.AllSucceed

/-- The devices from slot `i` on which open also answer. -/
def StatusOutcomes.AnswersFrom (outs : StatusOutcomes) (list : DeviceList)
    (i : ℕ) : Prop :=
  ∀ k, i ≤ k → k < list.devicecount →
    (outs.usb (list.usbDeviceIndex k)).Opens → (outs.reads k).succeed = true

/-- The initialisation fails; or the list has a device, and all of its devices
which open also answer. -/
def StatusOutcomes.Completes (outs : StatusOutcomes) (lib : Library) : Prop :=
  (lib.hackrfInit outs.libusbInit).1 ≠ .success ∨
    ∀ list, hackrfDeviceList outs.allocations outs.devices outs.stack =
        some list →
      0 < list.devicecount ∧ outs.AnswersFrom list 0

namespace Library

variable {lib : Library} {outs : StatusOutcomes} {list : DeviceList}

theorem openUsbDevice_cases (usb : UsbOpenOutcomes) (lib : Library) :
    (usb.Opens ∧ (lib.openUsbDevice usb).code = .success ∧
        (lib.openUsbDevice usb).device = some lib.nextHandle ∧
        (lib.openUsbDevice usb).library = lib.addHandle) ∨
      (¬ usb.Opens ∧ (lib.openUsbDevice usb).code ≠ .success ∧
        (lib.openUsbDevice usb).library = lib) := by
  unfold openUsbDevice UsbOpenOutcomes.Opens
  cases usb.opened with
  | false => simp
  | true =>
      simp only [↓reduceIte, true_and]
      rcases lib.hackrfOpenSetup_cases usb.setup with
        ⟨hall, hcode, hlib⟩ | ⟨hfails, hcode, hlib⟩
      · have hfollows := lib.hackrfOpenSetup_followsFrom usb.setup
        rcases hfollows with ⟨-, hcode', -⟩ | ⟨hdevice, -, -⟩
        · exact absurd hcode hcode'
        · exact .inl ⟨hall, hcode, hdevice, hlib⟩
      · exact .inr ⟨hfails, hcode, hlib⟩

theorem close_addHandle_openDevices
    (hrange : lib.openDevices < openDevicesRange)
    (stopRx stopTx : HackrfError) :
    (lib.addHandle.hackrfClose (some lib.nextHandle) stopRx
      stopTx).2.openDevices = lib.openDevices := by
  simp only [hackrfClose, decrementOpenDevices, addHandle]
  unfold openDevicesRange at *
  omega

/-- The loop either goes through all devices, if those which open answer, and
closes them; or it returns with one of them open. -/
theorem statusLoop_cases {n i : ℕ} (hn : i + n = list.devicecount)
    (hrange : lib.openDevices < openDevicesRange)
    (held : List StatusResource) :
    (outs.AnswersFrom list i ∧
        (lib.statusLoop list outs n i).success = true ∧
        EventRun.run HandleTrace.step held
          (lib.statusLoop list outs n i).trace = some held ∧
        (lib.statusLoop list outs n i).library.openDevices =
          lib.openDevices) ∨
      (¬ outs.AnswersFrom list i ∧
        (lib.statusLoop list outs n i).success = false ∧
        ∃ handle, EventRun.run HandleTrace.step held
          (lib.statusLoop list outs n i).trace =
            some (.device handle :: held)) := by
  induction n generalizing i lib with
  | zero =>
      left
      refine ⟨?_, rfl, rfl, rfl⟩
      intro k hik hk
      omega
  | succ n ih =>
      have hi : i < list.devicecount := by omega
      have hnext : i + 1 + n = list.devicecount := by omega
      have hsplit : outs.AnswersFrom list i ↔
          ((outs.usb (list.usbDeviceIndex i)).Opens →
            (outs.reads i).succeed = true) ∧
          outs.AnswersFrom list (i + 1) := by
        constructor
        · intro hanswers
          exact ⟨hanswers i le_rfl hi, fun k hik =>
            hanswers k (Nat.le_of_succ_le hik)⟩
        · rintro ⟨hhere, hlater⟩ k hik hk
          rcases Nat.eq_or_lt_of_le hik with rfl | hlt
          · exact hhere
          · exact hlater k hlt hk
      rw [hsplit, statusLoop, DeviceList.openAt_eq hi]
      rcases openUsbDevice_cases (outs.usb (list.usbDeviceIndex i)) lib with
        ⟨hopens, hcode, hdevice, hlib⟩ | ⟨hfails, hcode, hlib⟩
      · simp only [hcode, hdevice, hlib, ↓reduceIte]
        cases hreads : (outs.reads i).succeed with
        | false =>
            right
            refine ⟨?_, by simp, lib.nextHandle, by simp [HandleTrace.step]⟩
            rintro ⟨hhere, -⟩
            exact absurd (hhere hopens) (by simp)
        | true =>
            have hclosed := close_addHandle_openDevices hrange
              (outs.reads i).stopRx (outs.reads i).stopTx
            have hrest := ih hnext (hclosed.symm ▸ hrange)
            simp only [hopens, hclosed] at hrest ⊢
            simpa [HandleTrace.step] using hrest
      · simp only [hcode, hlib, ↓reduceIte]
        simpa [hfails] using ih hnext hrange

theorem openDevices_of_hackrfInit {libusbInit : Bool} {code : HackrfError}
    {next : Library} (hinit : lib.hackrfInit libusbInit = (code, next)) :
    next.openDevices = lib.openDevices := by
  unfold hackrfInit at hinit
  split_ifs at hinit <;>
    · obtain ⟨-, rfl⟩ := Prod.mk.inj hinit
      rfl

theorem hackrfExit_openDevices (lib : Library) :
    lib.hackrfExit.2.openDevices = lib.openDevices := by
  unfold hackrfExit
  split_ifs <;> rfl

theorem checkHackRFStatus_of_init {next : Library}
    (hinit : lib.hackrfInit outs.libusbInit = (.success, next))
    (hlist : hackrfDeviceList outs.allocations outs.devices outs.stack =
      some list) :
    lib.checkHackRFStatus outs =
      if list.devicecount < 1 then
        some ⟨false, [.acquire .deviceList], next⟩
      else if (next.statusLoop list outs list.devicecount 0).success then
        some ⟨true, .acquire .deviceList ::
          (next.statusLoop list outs list.devicecount 0).trace ++
            [.release (some .deviceList)],
          (next.statusLoop list outs list.devicecount 0).library.hackrfExit.2⟩
      else
        some ⟨false, .acquire .deviceList ::
          (next.statusLoop list outs list.devicecount 0).trace,
          (next.statusLoop list outs list.devicecount 0).library⟩ := by
  unfold checkHackRFStatus
  rw [hinit, hlist]

theorem leavesNothing_of_list {next : Library}
    (hrange : lib.openDevices < openDevicesRange)
    (hinit : lib.hackrfInit outs.libusbInit = (.success, next))
    (hlist : hackrfDeviceList outs.allocations outs.devices outs.stack =
      some list) :
    lib.LeavesNothing outs ↔ 0 < list.devicecount ∧ outs.AnswersFrom list 0 := by
  have hdevices := openDevices_of_hackrfInit hinit
  have hreturn := checkHackRFStatus_of_init hinit hlist
  unfold LeavesNothing
  by_cases hempty : list.devicecount < 1
  · rw [if_pos hempty] at hreturn
    refine iff_of_false (fun hleaves => ?_) (by omega)
    have hheld := (hleaves _ hreturn).1
    simp [HandleTrace.step] at hheld
  · rw [if_neg hempty] at hreturn
    rcases statusLoop_cases (Nat.zero_add list.devicecount)
        (hdevices ▸ hrange) [.deviceList] with
      ⟨hanswers, hsuccess, hrun, hopen⟩ | ⟨hsilent, hfailure, handle, hrun⟩
    · rw [if_pos hsuccess] at hreturn
      refine iff_of_true ?_ ⟨by omega, hanswers⟩
      intro ret hret
      obtain rfl := Option.some.inj (hreturn.symm.trans hret)
      constructor
      · rw [List.cons_append, EventRun.run_cons, HandleTrace.step,
          Option.bind_some, EventRun.run_append, hrun]
        rfl
      · rw [hackrfExit_openDevices, hopen, hdevices]
    · rw [if_neg (by simp [hfailure])] at hreturn
      refine iff_of_false (fun hleaves => ?_) (fun hall => hsilent hall.2)
      have hheld := (hleaves _ hreturn).1
      rw [EventRun.run_cons, HandleTrace.step, Option.bind_some, hrun] at hheld
      simp at hheld

theorem leavesNothing_iff (hrange : lib.openDevices < openDevicesRange)
    (outs : StatusOutcomes) :
    lib.LeavesNothing outs ↔ outs.Completes lib := by
  unfold StatusOutcomes.Completes
  rcases hinit : lib.hackrfInit outs.libusbInit with ⟨code, next⟩
  by_cases hcode : code = .success
  · subst code
    simp only [ne_eq, not_true_eq_false, false_or]
    cases hlist : hackrfDeviceList outs.allocations outs.devices
        outs.stack with
    | none =>
        refine iff_of_true ?_ (by simp)
        intro ret hret
        simp [checkHackRFStatus, hinit, hlist] at hret
    | some list =>
        rw [leavesNothing_of_list hrange hinit hlist]
        simp
  · refine iff_of_true ?_ (.inl hcode)
    have hdevices := openDevices_of_hackrfInit hinit
    intro ret hret
    unfold checkHackRFStatus at hret
    rw [hinit] at hret
    cases code <;> first
      | exact absurd rfl hcode
      | (obtain rfl := Option.some.inj hret
         exact ⟨rfl, hdevices⟩)

end Library

/-- However often the status is checked, the calls leave nothing behind exactly
if each of them completes. -/
theorem leavesNothing_along_iff {lib : Library}
    (hrange : lib.openDevices < openDevicesRange)
    (calls : List StatusOutcomes) :
    EventRun.Along Library.checkStatus
        (fun lib outs _ => lib.LeavesNothing outs) lib calls ↔
      EventRun.Along Library.checkStatus
        (fun lib outs _ => outs.Completes lib) lib calls := by
  refine EventRun.along_iff_of_invariant
    (fun lib => lib.openDevices < openDevicesRange) ?_ ?_ hrange calls
  · intro lib outs next _ hrange
    exact Library.leavesNothing_iff hrange outs
  · intro lib outs next hstep hleaves hrange
    obtain ⟨ret, hret, rfl⟩ := Option.map_eq_some_iff.mp hstep
    rw [(hleaves ret hret).2]
    exact hrange

def UsbOpenOutcomes.granted : UsbOpenOutcomes where
  opened := true
  setup := ⟨⟨some 1, ⟨true, []⟩, true, ⟨true, []⟩⟩, true, true,
    ⟨true, fun _ => true⟩⟩

/-- One HackRF, which opens and answers all requests but perhaps the first. -/
def StatusOutcomes.single (boardId : HackrfError) : StatusOutcomes where
  libusbInit := true
  allocations := .granted
  devices := [.unnumbered]
  stack := fun _ => 0
  usb := fun _ => .granted
  reads := fun _ => ⟨boardId, .success, .success, .success, .usbApiVersion,
    .success, .success⟩

theorem leavesNothing_along_single :
    EventRun.Along Library.checkStatus
      (fun lib outs _ => lib.LeavesNothing outs) Library.initial
      [.single .success, .single .success] := by
  apply (leavesNothing_along_iff (by decide) _).mpr
  refine EventRun.along_of_forall ?_ _
  intro outs houts lib next
  obtain rfl : outs = .single .success := by simpa using houts
  right
  intro list hlist
  obtain rfl := Option.some.inj hlist
  exact ⟨by decide, fun _ _ _ _ => rfl⟩

/-- The device stays open and the list is not freed. -/
theorem leavesNothing_fails_boardId :
    (Library.initial.checkStatus (.single .libusb)).map
        Library.openDevices = some 1 ∧
      ¬ Library.initial.LeavesNothing (.single .libusb) := by
  refine ⟨by decide, fun hleaves => ?_⟩
  have hopen := (hleaves _ rfl).2
  exact absurd hopen (by decide)

end HackRF
