import Mathlib.Tactic

/-!
# Types shared by the libhackrf modules

The enumerations and constants of `hackrf.h` and the head of `hackrf.c`.
-/

namespace HackRF

inductive HackrfError where
  | success
  | true
  | invalidParam
  | notFound
  | busy
  | noMem
  | libusb
  | thread
  | streamingThreadErr
  | streamingStopped
  | streamingExitCalled
  | usbApiVersion
  | notLastDevice
  | other
  deriving DecidableEq, Repr

def HackrfError.code : HackrfError → ℤ
  | .success => 0
  | .true => 1
  | .invalidParam => -2
  | .notFound => -5
  | .busy => -6
  | .noMem => -11
  | .libusb => -1000
  | .thread => -1001
  | .streamingThreadErr => -1002
  | .streamingStopped => -1003
  | .streamingExitCalled => -1004
  | .usbApiVersion => -1005
  | .notLastDevice => -2000
  | .other => -9999

inductive TransceiverMode where
  | off
  | receive
  | transmit
  | ss
  | cpldUpdate
  deriving DecidableEq, Repr

abbrev transferCount : ℕ := 4

abbrev TransferIndex := Fin transferCount

instance : NeZero transferCount := ⟨by decide⟩

/-- The next iteration of a loop `for(i=0; i<TRANSFER_COUNT; i++)`. -/
def TransferIndex.next (index : TransferIndex) : Option TransferIndex :=
  if h : index.val + 1 < transferCount then some ⟨index.val + 1, h⟩ else none

theorem TransferIndex.lt_of_next {index after : TransferIndex}
    (hnext : index.next = some after) (k : TransferIndex) :
    k < after ↔ k < index ∨ k = index := by
  unfold TransferIndex.next at hnext
  split at hnext
  next hlt =>
    simp only [Option.some.injEq] at hnext
    subst after
    simp only [Fin.lt_def, Fin.ext_iff]
    omega
  next => simp at hnext

theorem TransferIndex.le_of_next_none {index : TransferIndex}
    (hnext : index.next = none) (k : TransferIndex) :
    k < index ∨ k = index := by
  unfold TransferIndex.next at hnext
  split at hnext
  next => simp at hnext
  next hlt =>
    have hk := k.isLt
    simp only [Fin.lt_def, Fin.ext_iff]
    omega

/-- The endpoint address held by a transfer: 0 as filled in by
`allocate_transfers`, `LIBUSB_ENDPOINT_IN | 1` or `LIBUSB_ENDPOINT_OUT | 2`. -/
inductive Endpoint where
  | unset
  | bulkIn
  | bulkOut
  deriving DecidableEq, Repr

inductive TransferStatus where
  | completed
  | error
  | timedOut
  | cancelled
  | stall
  | noDevice
  | overflow
  deriving DecidableEq, Repr

end HackRF
