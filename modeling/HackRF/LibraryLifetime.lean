import HackRF.EventRun
import HackRF.LibraryCalls

/-!
# Library lifetime accounting

A run is a sequence of calls of the functions of `LibraryCalls` by one
application.  `hackrf_close` may be given `NULL` or a device which is open;
anything else is a dangling pointer and has no meaning.  `open_devices` counts
the open devices as long as no call of the run closes `NULL` and the 16 bits
suffice, and goes wrong at the first call which does one or the other.
-/

namespace HackRF

inductive LibraryCall where
  | init (libusbInit : Bool)
  | open (device : Bool) (outs : OpenOutcomes)
  | openBySerial (serial device : Bool) (found : Bool) (outs : OpenOutcomes)
  | deviceListOpen (args : DeviceListOpenCall) (opened : Bool)
      (setup : SetupOutcomes)
  | close (device : Option DeviceHandle) (stopRx stopTx : HackrfError)
  | exit

namespace Library

def step (lib : Library) : LibraryCall → Option Library
  | .init libusbInit => some (lib.hackrfInit libusbInit).2
  | .open device outs => some (lib.hackrfOpen device outs).library
  | .openBySerial serial device found outs =>
      some (lib.hackrfOpenBySerial serial device found outs).library
  | .deviceListOpen args opened setup =>
      some (lib.hackrfDeviceListOpen args opened setup).library
  | .close none stopRx stopTx => some (lib.hackrfClose none stopRx stopTx).2
  | .close (some handle) stopRx stopTx =>
      if handle ∈ lib.handles then
        some (lib.hackrfClose (some handle) stopRx stopTx).2
      else none
  | .exit => some lib.hackrfExit.2

end Library

/-- The outcomes of `hackrf_open` let it reach the end of the set-up. -/
def OpenOutcomes.Opens (device : Bool) (outs : OpenOutcomes) : Prop :=
  device = true ∧ (∃ product, outs.openWithVidPid product = true) ∧
    outs.setup.AllSucceed

/-- The arguments and outcomes of an open call let it reach the end of the
set-up. -/
def LibraryCall.Opens : LibraryCall → Prop
  | .open device outs => outs.Opens device
  | .openBySerial serial device found outs =>
      if serial = false then outs.Opens device
      else device = true ∧ found = true ∧ outs.setup.AllSucceed
  | .deviceListOpen args opened setup =>
      args.device = true ∧ args.list = true ∧ 0 ≤ args.idx ∧
        args.idx < args.devicecount ∧ opened = true ∧ setup.AllSucceed
  | _ => False

def LibraryCall.ClosesNull : LibraryCall → Prop
  | .close none _ _ => True
  | _ => False

namespace Library

variable {lib next : Library} {call : LibraryCall}

/-- An open function hands out a new device if `opens`, and leaves the library
as it was if not. -/
def OpensIf (opens : Prop) (lib : Library) (result : OpenResult) : Prop :=
  (opens ∧ result.library = lib.addHandle) ∨
    (¬ opens ∧ result.library = lib)

theorem hackrfOpenSetup_opensIf (outs : SetupOutcomes) (lib : Library) :
    lib.OpensIf outs.AllSucceed (lib.hackrfOpenSetup outs) := by
  rcases lib.hackrfOpenSetup_cases outs with
    ⟨hall, _, hlib⟩ | ⟨hfails, _, hlib⟩
  · exact .inl ⟨hall, hlib⟩
  · exact .inr ⟨hfails, hlib⟩

theorem OpensIf.congr {opens opens' : Prop} {result : OpenResult}
    (hopensIf : lib.OpensIf opens result) (hiff : opens' ↔ opens) :
    lib.OpensIf opens' result := by
  rwa [OpensIf, hiff]

theorem hackrfOpen_opensIf (device : Bool) (outs : OpenOutcomes)
    (lib : Library) :
    lib.OpensIf (outs.Opens device) (lib.hackrfOpen device outs) := by
  unfold hackrfOpen
  split_ifs with hdevice hfound
  · exact .inr ⟨fun hopens => by simp [hopens.1] at hdevice, rfl⟩
  · have hproduct : ∃ product, outs.openWithVidPid product = true := by
      simp only [Bool.or_eq_true] at hfound
      rcases hfound with (hone | hjawbreaker) | hrad1o
      · exact ⟨_, hone⟩
      · exact ⟨_, hjawbreaker⟩
      · exact ⟨_, hrad1o⟩
    have hdevice : device = true := by simpa using hdevice
    exact (lib.hackrfOpenSetup_opensIf outs.setup).congr
      ⟨fun hopens => hopens.2.2, fun hall => ⟨hdevice, hproduct, hall⟩⟩
  · refine .inr ⟨?_, rfl⟩
    rintro ⟨_, ⟨product, hproduct⟩, _⟩
    cases product <;> simp [hproduct] at hfound

theorem hackrfOpenBySerial_opensIf (serial device found : Bool)
    (outs : OpenOutcomes) (lib : Library) :
    lib.OpensIf (LibraryCall.openBySerial serial device found outs).Opens
      (lib.hackrfOpenBySerial serial device found outs) := by
  change lib.OpensIf (if serial = false then outs.Opens device
    else device = true ∧ found = true ∧ outs.setup.AllSucceed) _
  unfold hackrfOpenBySerial
  split_ifs with hserial hdevice hfound
  · exact lib.hackrfOpen_opensIf device outs
  · exact .inr ⟨fun hopens => by simp [hopens.1] at hdevice, rfl⟩
  · have hdevice : device = true := by simpa using hdevice
    exact (lib.hackrfOpenSetup_opensIf outs.setup).congr
      ⟨fun hopens => hopens.2.2, fun hall => ⟨hdevice, hfound, hall⟩⟩
  · exact .inr ⟨fun hopens => hfound hopens.2.1, rfl⟩

theorem hackrfDeviceListOpen_opensIf (args : DeviceListOpenCall)
    (opened : Bool) (setup : SetupOutcomes) (lib : Library) :
    lib.OpensIf (LibraryCall.deviceListOpen args opened setup).Opens
      (lib.hackrfDeviceListOpen args opened setup) := by
  unfold hackrfDeviceListOpen LibraryCall.Opens
  split_ifs with hargs hopened
  · refine .inr ⟨?_, rfl⟩
    rintro ⟨hdevice, hlist, hlow, hhigh, -, -⟩
    rcases hargs with h | h | h | h
    · simp [hdevice] at h
    · simp [hlist] at h
    · omega
    · omega
  · push Not at hargs
    obtain ⟨hdevice, hlist, hlow, hhigh⟩ := hargs
    exact (lib.hackrfOpenSetup_opensIf setup).congr
      ⟨fun hopens => hopens.2.2.2.2.2, fun hall =>
        ⟨by simpa using hdevice, by simpa using hlist, hlow, hhigh, hopened,
          hall⟩⟩
  · exact .inr ⟨fun hopens => hopened hopens.2.2.2.2.1, rfl⟩

/-! ## What one call does to the accounts -/

/-- The effects which a call can have on `open_devices` and the open devices,
with the condition under which it has them. -/
inductive Move (lib : Library) : LibraryCall → Library → Prop
  | opened {call : LibraryCall} (hopens : call.Opens) :
      Move lib call lib.addHandle
  | closed {handle : DeviceHandle} (stopRx stopTx : HackrfError)
      (hopen : handle ∈ lib.handles) :
      Move lib (.close (some handle) stopRx stopTx)
        { lib with handles := lib.handles.erase handle }.decrementOpenDevices
  | closedNull (stopRx stopTx : HackrfError) :
      Move lib (.close none stopRx stopTx) lib.decrementOpenDevices
  | kept {call : LibraryCall} {next : Library} (hopens : ¬ call.Opens)
      (hnull : ¬ call.ClosesNull) (hdevices : next.openDevices = lib.openDevices)
      (hhandles : next.handles = lib.handles) :
      Move lib call next

theorem OpensIf.move {result : OpenResult}
    (hopensIf : lib.OpensIf call.Opens result) (hnull : ¬ call.ClosesNull) :
    lib.Move call result.library := by
  rcases hopensIf with ⟨hopens, hlib⟩ | ⟨hfails, hlib⟩
  · rw [hlib]
    exact .opened hopens
  · exact .kept hfails hnull (by rw [hlib]) (by rw [hlib])

theorem move_of_step (hstep : lib.step call = some next) :
    lib.Move call next := by
  cases call with
  | init libusbInit =>
      simp only [step, hackrfInit, Option.some.injEq] at hstep
      subst next
      refine .kept id id ?_ ?_ <;> split_ifs <;> rfl
  | «open» device outs =>
      obtain rfl := Option.some.inj hstep
      exact OpensIf.move (lib.hackrfOpen_opensIf device outs) id
  | openBySerial serial device found outs =>
      obtain rfl := Option.some.inj hstep
      exact (lib.hackrfOpenBySerial_opensIf serial device found outs).move id
  | deviceListOpen args opened setup =>
      obtain rfl := Option.some.inj hstep
      exact (lib.hackrfDeviceListOpen_opensIf args opened setup).move id
  | close device stopRx stopTx =>
      cases device with
      | none =>
          obtain rfl := Option.some.inj hstep
          exact .closedNull stopRx stopTx
      | some handle =>
          simp only [step] at hstep
          split_ifs at hstep with hopen
          obtain rfl := Option.some.inj hstep
          exact .closed stopRx stopTx hopen
  | exit =>
      simp only [step, hackrfExit, Option.some.injEq] at hstep
      subst next
      refine .kept id id ?_ ?_ <;> split_ifs <;> rfl

/-! ## The accounts over a run -/

def Counts (lib : Library) : Prop :=
  lib.openDevices = lib.handles.length

/-- What the accounting promises about one call: the counter is right after
it, and if it is `hackrf_exit`, then it succeeds, and it destroys the context,
only if no device is open, and it reports another device only if there is
one. -/
structure Accounted (lib : Library) (call : LibraryCall) (next : Library) :
    Prop where
  counts : next.Counts
  exitSuccess : call = .exit → lib.hackrfExit.1 = .success → lib.handles = []
  exitDestroys : call = .exit → lib.context = true → next.context = false →
    lib.handles = []
  exitNotLast : call = .exit → lib.hackrfExit.1 = .notLastDevice →
    lib.handles ≠ []

/-- The call does not close `NULL` and does not open one device too many. -/
structure Countable (lib : Library) (call : LibraryCall) (_ : Library) :
    Prop where
  notNull : ¬ call.ClosesNull
  fits : call.Opens → lib.handles.length + 1 < openDevicesRange

/-- The accounts in a state whose counter is in range. -/
structure Balanced (lib : Library) : Prop where
  counts : lib.Counts
  inRange : lib.openDevices < openDevicesRange

theorem addHandle_counts_iff (hlib : lib.Balanced) :
    lib.addHandle.Counts ↔ lib.handles.length + 1 < openDevicesRange := by
  have hcounts : lib.openDevices = lib.handles.length := hlib.counts
  have hrange := hlib.inRange
  unfold Counts
  simp only [addHandle, List.length_cons]
  unfold openDevicesRange at *
  omega

theorem erase_counts (hlib : lib.Balanced) {handle : DeviceHandle}
    (hopen : handle ∈ lib.handles) :
    Counts { lib with
      handles := lib.handles.erase handle }.decrementOpenDevices := by
  have hcounts : lib.openDevices = lib.handles.length := hlib.counts
  have hrange := hlib.inRange
  have hpos : 0 < lib.handles.length := List.length_pos_of_mem hopen
  have herase := List.length_erase_of_mem hopen
  unfold Counts
  simp only [decrementOpenDevices, herase]
  unfold openDevicesRange at *
  omega

/-- Stepping back modulo `n` leads to another number. -/
theorem add_pred_mod_ne {k n : ℕ} (hk : k < n) (hn : 1 < n) :
    (k + (n - 1)) % n ≠ k := by
  cases k with
  | zero =>
      rw [Nat.zero_add, Nat.mod_eq_of_lt (by omega)]
      omega
  | succ k =>
      have hback : k + 1 + (n - 1) = k + n := by omega
      rw [hback, Nat.add_mod_right, Nat.mod_eq_of_lt (by omega)]
      omega

theorem decrementOpenDevices_not_counts (hlib : lib.Balanced) :
    ¬ lib.decrementOpenDevices.Counts := by
  have hcounts : lib.openDevices = lib.handles.length := hlib.counts
  have hback := add_pred_mod_ne hlib.inRange (by decide)
  rw [hcounts] at hback
  unfold Counts
  rwa [decrementOpenDevices, hcounts]

/-- A call keeps the counter right exactly if it is countable. -/
theorem Move.counts_iff (hmove : lib.Move call next) (hlib : lib.Balanced) :
    next.Counts ↔ lib.Countable call next := by
  cases hmove with
  | opened hopens =>
      rw [addHandle_counts_iff hlib]
      refine ⟨fun hfits => ⟨fun hnull => ?_, fun _ => hfits⟩,
        fun hcountable => hcountable.fits hopens⟩
      cases call <;> first | exact hopens | exact hnull
  | closed stopRx stopTx hopen =>
      exact iff_of_true (erase_counts hlib hopen) ⟨id, False.elim⟩
  | closedNull stopRx stopTx =>
      exact iff_of_false (decrementOpenDevices_not_counts hlib)
        fun hcountable => hcountable.notNull trivial
  | kept hopens hnull hdevices hhandles =>
      refine iff_of_true ?_ ⟨hnull, fun h => (hopens h).elim⟩
      rw [Counts, hdevices, hhandles]
      exact hlib.counts

theorem Move.inRange (hmove : lib.Move call next) (hlib : lib.Balanced) :
    next.openDevices < openDevicesRange := by
  cases hmove with
  | opened => exact Nat.mod_lt _ (by decide)
  | closed => exact Nat.mod_lt _ (by decide)
  | closedNull => exact Nat.mod_lt _ (by decide)
  | kept _ _ hdevices _ => exact hdevices ▸ hlib.inRange

/-- While the accounts are right, `hackrf_exit` answers as promised. -/
theorem Balanced.accounted (hlib : lib.Balanced)
    (hstep : lib.step call = some next) (hnext : next.Counts) :
    lib.Accounted call next := by
  have hcounts : lib.openDevices = lib.handles.length := hlib.counts
  have hexit : call = .exit → next = lib.hackrfExit.2 := by
    rintro rfl
    exact (Option.some.inj hstep).symm
  refine ⟨hnext, fun _ hcode => ?_, fun hcall hbefore hafter => ?_,
    fun _ hcode hnone => ?_⟩
  · rw [hackrfExit] at hcode
    split_ifs at hcode with hzero
    exact List.length_eq_zero_iff.mp (hcounts ▸ hzero)
  · rw [hexit hcall, hackrfExit] at hafter
    split_ifs at hafter with hzero
    · exact List.length_eq_zero_iff.mp (hcounts ▸ hzero)
    · rw [hbefore] at hafter
      exact absurd hafter (by simp)
  · rw [hackrfExit, hcounts, hnone] at hcode
    simp at hcode

end Library

/-- Over every run from the loaded library, every call is accounted for
exactly if no call of the run is `hackrf_close(NULL)`, and no open call
reaches the end of its set-up while 65535 devices are open. -/
theorem accounted_iff_countable (calls : List LibraryCall) :
    EventRun.Along Library.step Library.Accounted Library.initial calls ↔
      EventRun.Along Library.step Library.Countable Library.initial calls := by
  have hinitial : Library.initial.Balanced := ⟨rfl, by decide⟩
  refine (EventRun.along_iff_of_invariant Library.Balanced
    (fun lib call next hstep hlib => ?_)
    (fun lib call next hstep hcountable hlib => ?_) hinitial calls).symm
  · have hmove := Library.move_of_step hstep
    rw [← hmove.counts_iff hlib]
    exact ⟨hlib.accounted hstep, Library.Accounted.counts⟩
  · have hmove := Library.move_of_step hstep
    exact ⟨(hmove.counts_iff hlib).mpr hcountable, hmove.inRange hlib⟩

/-- After `hackrf_init` and `hackrf_close(NULL)`, no device is open but
`open_devices` is 65535, and `hackrf_exit` refuses to destroy the context. -/
theorem close_null_wraps_openDevices :
    ∃ lib, EventRun.run Library.step Library.initial
        [.init true, .close none .success .success] = some lib ∧
      lib.handles = [] ∧ lib.openDevices = 65535 ∧
      lib.hackrfExit.1 = .notLastDevice ∧ lib.hackrfExit.2.context = true := by
  refine ⟨⟨true, 65535, [], 0⟩, ?_, ?_⟩
  · rfl
  · decide

end HackRF
