import HackRF.StreamingMoves

/-!
# `hackrf_close` and the transfer thread

`hackrf_close` runs two stop calls and frees the device whatever they return.
A stop call whose mode request fails, or whose `pthread_join` fails, leaves
the transfer thread as it is.  The invariants below follow the flag
`transfer_thread_started` and the thread itself through every statement, and
give the exact outcomes under which the thread is gone when the device is
freed.
-/

namespace HackRF.Streaming

variable {D Callback Ctx : Type*}

/-! ## The flag and the thread -/

def Device.hasThread (dev : Device Callback Ctx) : Bool :=
  dev.transferThread ≠ .absent

/-- `transfer_thread_started` says whether there is a thread, except between
`pthread_join` and its assignment in a stop call. -/
def StopPc.FlagFits (started present : Bool) : StopPc → Prop
  | .clearStarted => started = true ∧ present = false
  | _ => started = present

def StopNext.FlagFits (started present : Bool) : StopNext → Prop
  | .at pc => pc.FlagFits started present
  | .done _ => started = present

/-- The same for a start call: the exception is between `pthread_create` and
its assignment. -/
def StartPc.FlagFits (started present : Bool) : StartPc → Prop
  | .modeRequest => started = present
  | .storeCtx => started = present
  | .testStarted => started = present
  | .setStarted => started = false ∧ present = true
  | _ => started = false ∧ present = false

def Call.FlagFits (started present : Bool) : Call Callback Ctx → Prop
  | .start _ _ pc => pc.FlagFits started present
  | .stop _ pc => pc.FlagFits started present
  | .close _ _ _ (.stopRx pc) => pc.FlagFits started present
  | .close _ _ _ (.stopTx _ pc) => pc.FlagFits started present
  | _ => started = present

def Device.ThreadInvariant (dev : Device Callback Ctx) : Prop :=
  dev.call.FlagFits dev.transferThreadStarted dev.hasThread

namespace Device

variable {dev dev' dev₁ : Device Callback Ctx}

theorem StopMove.flagFits {outs : StopOutcomes} {pc : StopPc}
    {next : StopNext} (hmove : StopMove outs dev pc next dev₁)
    (hfits : pc.FlagFits dev.transferThreadStarted dev.hasThread) :
    next.FlagFits dev₁.transferThreadStarted dev₁.hasThread := by
  cases hmove <;>
    simp_all [StopNext.FlagFits, StopPc.FlagFits, hasThread, requestExit,
      cancelTransfer, setTransfer]

theorem ThreadInvariant.keep {action : Action Callback Ctx}
    (hmove : dev.Move action dev') (hinv : dev.ThreadInvariant) :
    dev'.ThreadInvariant := by
  unfold ThreadInvariant at hinv ⊢
  cases hmove with
  | entered call hcall =>
      cases call <;> simp_all [goto, ApiCall.entry, Call.FlagFits, StartPc.FlagFits,
          StopPc.FlagFits, hasThread]
  | stopAt outs pc next dev₁ hcall hstep =>
      rw [hcall] at hinv
      have hnext := (stopMove_of_stopStep hstep).flagFits hinv
      cases next <;> exact hnext
  | stopDone outs pc code dev₁ hcall hstep =>
      rw [hcall] at hinv
      exact (stopMove_of_stopStep hstep).flagFits hinv
  | closeStopRx wasStarted outs1 outs2 pc next dev₁ hcall hstep =>
      rw [hcall] at hinv
      have hnext := (stopMove_of_stopStep hstep).flagFits hinv
      cases next <;> exact hnext
  | closeStopTx wasStarted outs1 outs2 result1 pc next dev₁ hcall hstep =>
      rw [hcall] at hinv
      have hnext := (stopMove_of_stopStep hstep).flagFits hinv
      cases next <;> exact hnext
  | ctxStored args outs hcall =>
      cases hdir : args.direction <;>
        simp_all [storeCtx, goto, Call.FlagFits, StartPc.FlagFits, hasThread]
  | submitted args outs index pc hcall _ _ hpc =>
      rcases hpc with ⟨next, _, rfl⟩ | ⟨_, rfl⟩ <;>
        simp_all [putInFlight, setEndpoint, setTransfer, goto, Call.FlagFits,
          StartPc.FlagFits, hasThread]
  | transferFreed wasStarted outs1 outs2 result1 result2 index pc hcall hpc =>
      rcases hpc with ⟨next, rfl⟩ | rfl <;>
        simp_all [freeTransfer, setTransfer, goto, Call.FlagFits, hasThread]
  | threadWaits failed hthread | threadExits failed hthread
  | eventsHandled hthread | eventsFailed hthread =>
      simpa [hasThread, hthread] using hinv
  | delivered => exact hinv
  | callbackCalled => exact hinv
  | resubmitted => exact hinv
  | resubmitRefused => exact hinv
  | exitRequested => exact hinv
  | _ =>
      simp_all [goto, finish, setEndpoint, setTransfer, beginSession,
        installCallback, Call.FlagFits, StartPc.FlagFits, hasThread]

theorem ThreadInvariant.isLocal :
    LocalInvariant (fun _ _ => True)
      (ThreadInvariant : Device Callback Ctx → Prop) where
  fresh := rfl
  keep := fun _ _ _ _ hstep hinv => hinv.keep (move_of_localStep hstep)

end Device

/-! ## How far a close call has got -/

/-- A stop call clears the flag if both its mode request and its join
succeed. -/
def StopOutcomes.leavesStarted (outs : StopOutcomes) (wasStarted : Bool) : Bool :=
  wasStarted && !(outs.mode && outs.join)

/-- What the statement of a stop call tells about the flag, which was
`wasStarted` when the call was entered, and about the outcomes so far. -/
def StopPc.Progress (outs : StopOutcomes) (wasStarted started : Bool) :
    StopPc → Prop
  | .modeRequest => started = wasStarted
  | .requestExit => started = wasStarted ∧ outs.mode = true
  | .join => started = wasStarted ∧ outs.mode = true
  | .clearStarted => outs.mode = true ∧ outs.join = true
  | .cancel _ => started = false ∧ outs.mode = true ∧ outs.join = true

def StopNext.Progress (outs : StopOutcomes) (wasStarted started : Bool) :
    StopNext → Prop
  | .at pc => pc.Progress outs wasStarted started
  | .done _ => started = outs.leavesStarted wasStarted

def Call.Progress (started : Bool) : Call Callback Ctx → Prop
  | .close wasStarted outs1 _ (.stopRx pc) =>
      pc.Progress outs1 wasStarted started
  | .close wasStarted outs1 outs2 (.stopTx _ pc) =>
      pc.Progress outs2 (outs1.leavesStarted wasStarted) started
  | .close wasStarted outs1 outs2 _ =>
      started = outs2.leavesStarted (outs1.leavesStarted wasStarted)
  | _ => True

def Device.CloseInvariant (dev : Device Callback Ctx) : Prop :=
  dev.call.Progress dev.transferThreadStarted

namespace Device

variable {dev dev' dev₁ : Device Callback Ctx}

theorem StopMove.progress {outs : StopOutcomes} {wasStarted : Bool}
    {pc : StopPc} {next : StopNext} (hmove : StopMove outs dev pc next dev₁)
    (hpc : pc.Progress outs wasStarted dev.transferThreadStarted) :
    next.Progress outs wasStarted dev₁.transferThreadStarted := by
  cases hmove <;>
    simp_all [StopNext.Progress, StopPc.Progress, StopOutcomes.leavesStarted,
      requestExit, cancelTransfer, setTransfer]

theorem CloseInvariant.keep {action : Action Callback Ctx}
    (hmove : dev.Move action dev') (hinv : dev.CloseInvariant) :
    dev'.CloseInvariant := by
  unfold CloseInvariant at hinv ⊢
  cases hmove with
  | entered call hcall =>
      cases call <;> simp [goto, ApiCall.entry, Call.Progress, StopPc.Progress]
  | closeStopRx wasStarted outs1 outs2 pc next dev₁ hcall hstep =>
      rw [hcall] at hinv
      have hnext := (stopMove_of_stopStep hstep).progress hinv
      cases next <;> exact hnext
  | closeStopTx wasStarted outs1 outs2 result1 pc next dev₁ hcall hstep =>
      rw [hcall] at hinv
      have hnext := (stopMove_of_stopStep hstep).progress hinv
      cases next <;> exact hnext
  | usbClosed wasStarted outs1 outs2 result1 result2 hcall =>
      rw [hcall] at hinv
      exact hinv
  | transferFreed wasStarted outs1 outs2 result1 result2 index pc hcall hpc =>
      rw [hcall] at hinv
      rcases hpc with ⟨next, rfl⟩ | rfl <;> exact hinv
  | threadWaits => exact hinv
  | threadExits => exact hinv
  | eventsHandled => exact hinv
  | eventsFailed => exact hinv
  | delivered => exact hinv
  | callbackCalled => exact hinv
  | resubmitted => exact hinv
  | resubmitRefused => exact hinv
  | exitRequested => exact hinv
  | _ => simp [goto, finish, Call.Progress]

theorem CloseInvariant.isLocal :
    LocalInvariant (fun _ _ => True)
      (CloseInvariant : Device Callback Ctx → Prop) where
  fresh := trivial
  keep := fun _ _ _ _ hstep hinv => hinv.keep (move_of_localStep hstep)

end Device

def ClosePc.freeing : ClosePc → Bool
  | .freeTransfer _ _ _ => true
  | .freeDevice _ _ => true
  | _ => false

/-- Whenever `hackrf_close` frees the transfers or the device, the transfer
thread has been joined or was never started exactly if there was no thread
when the call was entered, or the mode request and the join of one of the two
stop calls both succeeded. -/
theorem hackrfClose_threadAbsent_iff [DecidableEq D]
    {events : List (Event D Callback Ctx)} {d : D} {dev : Device Callback Ctx}
    (hdev : deviceAfter events d = some dev)
    {wasStarted : Bool} {outs1 outs2 : StopOutcomes} {pc : ClosePc}
    (hcall : dev.call = .close wasStarted outs1 outs2 pc)
    (hfreeing : pc.freeing = true) :
    dev.transferThread = .absent ↔
      wasStarted = false ∨ (outs1.mode = true ∧ outs1.join = true) ∨
        (outs2.mode = true ∧ outs2.join = true) := by
  have hthread := Device.ThreadInvariant.isLocal.of_reachable hdev
  have hclose := Device.CloseInvariant.isLocal.of_reachable hdev
  unfold Device.ThreadInvariant at hthread
  unfold Device.CloseInvariant at hclose
  rw [hcall] at hthread hclose
  have hflag : dev.transferThreadStarted = dev.hasThread := by
    cases pc <;> first | exact hthread | simp [ClosePc.freeing] at hfreeing
  have hleft : dev.transferThreadStarted =
      outs2.leavesStarted (outs1.leavesStarted wasStarted) := by
    cases pc <;> first | exact hclose | simp [ClosePc.freeing] at hfreeing
  have habsent : dev.transferThread = .absent ↔ dev.hasThread = false := by
    simp [Device.hasThread]
  rw [habsent, ← hflag, hleft]
  simp only [StopOutcomes.leavesStarted]
  cases wasStarted <;> cases outs1.mode <;> cases outs1.join <;>
    cases outs2.mode <;> cases outs2.join <;> simp

/-- A receiving device whose first mode request fails and whose second stop
call succeeds. -/
theorem hackrfClose_threadAbsent_secondStop :
    let events : List (Event Unit ℕ ℕ) :=
      [.open (), .enter () (.startRx 0 0 ⟨true, fun _ => true, true⟩)] ++
        apiSteps () 13 ++
      [.enter () (.close ⟨false, true⟩ ⟨true, true⟩)] ++ apiSteps () 3 ++
      [.thread () false] ++ apiSteps () 7
    ∃ dev, deviceAfter events () = some dev ∧
      dev.transferThread = .absent := by
  intro events
  have hsome : (deviceAfter events ()).map Device.call =
      some (.close true ⟨false, true⟩ ⟨true, true⟩
        (.freeTransfer .libusb .success 0)) := by rfl
  obtain ⟨dev, hdev, hcall⟩ := Option.map_eq_some_iff.mp hsome
  exact ⟨dev, hdev,
    (hackrfClose_threadAbsent_iff hdev hcall rfl).mpr (.inr (.inr ⟨rfl, rfl⟩))⟩

/-- A receiving device is unplugged, so both mode requests fail: its transfer
thread is still in the event loop when `free_transfers` runs. -/
theorem hackrfClose_frees_running_thread :
    let events : List (Event Unit ℕ ℕ) :=
      [.open (), .enter () (.startRx 0 0 ⟨true, fun _ => true, true⟩)] ++
        apiSteps () 13 ++ [.thread () false] ++
      [.enter () (.close ⟨false, true⟩ ⟨false, true⟩)] ++ apiSteps () 3
    ∃ dev, deviceAfter events () = some dev ∧
      (∃ wasStarted outs1 outs2 result1 result2,
        dev.call = .close wasStarted outs1 outs2
          (.freeTransfer result1 result2 0)) ∧
      dev.transferThread ≠ .absent := by
  intro events
  have hsome : (deviceAfter events ()).map
        (fun dev => (dev.call, dev.transferThread)) =
      some (.close true ⟨false, true⟩ ⟨false, true⟩
        (.freeTransfer .libusb .libusb 0), .handlingEvents) := by rfl
  obtain ⟨dev, hdev, heq⟩ := Option.map_eq_some_iff.mp hsome
  obtain ⟨hcall, hthread⟩ := Prod.mk.inj heq
  exact ⟨dev, hdev, ⟨_, _, _, _, _, hcall⟩, by simp [hthread]⟩

end HackRF.Streaming
