import HackRF.HostByteOrder

/-!
# The frequency that is tuned to

`hackrf_set_freq` splits a frequency into megahertz and a rest, each in 32
bits.  The megahertz are truncated before they are taken off again, so from
2 ^ 32 MHz on neither part is the right one.
-/

namespace HackRF

open ByteMemory

variable {host : ByteOrder} {usb : Usb} {stack : Memory} {freqHz : UInt64}
  {s : ControlState}

def TunesTo (freqHz : UInt64) (transfer : ControlOut) : Prop :=
  decode 4 0 transfer.data * freqOneMhz + decode 4 4 transfer.data =
      freqHz.toNat ∧
    decode 4 4 transfer.data < freqOneMhz

/-- A call that succeeds has sent the frequency. -/
def TunesExactly (host : ByteOrder) (freqHz : UInt64) : Prop :=
  ∀ usb stack s, (hackrfSetFreq host usb stack freqHz s).1 = .success →
    ∃ transfer,
      (hackrfSetFreq host usb stack freqHz s).2.sent = s.sent ++ [transfer] ∧
        TunesTo freqHz transfer

theorem hackrfSetFreq_sent (host : ByteOrder) (usb : Usb) (stack : Memory)
    (freqHz : UInt64) (s : ControlState) :
    ∃ transfer,
      (hackrfSetFreq host usb stack freqHz s).2.sent = s.sent ++ [transfer] ∧
        decode 4 0 transfer.data = freqHz.toNat / freqOneMhz % 2 ^ 32 ∧
        decode 4 4 transfer.data =
          (freqHz.toNat - freqHz.toNat / freqOneMhz % 2 ^ 32 * freqOneMhz) %
            2 ^ 32 := by
  refine ⟨_, sendRequest_sent, ?_, ?_⟩
  · rw [decode_image (by norm_num), load_store_of_disjoint (by norm_num),
      load_store_toLe, Nat.mod_mod]
  · rw [decode_image (by norm_num), load_store_toLe, Nat.mod_mod]

theorem hackrfSetFreq_obliging (host : ByteOrder) (stack : Memory)
    (freqHz : UInt64) (s : ControlState) :
    (hackrfSetFreq host obligingUsb stack freqHz s).1 = .success := by
  unfold hackrfSetFreq sendRequest
  simp [obligingUsb, image]

/-- The parts add up if and only if the megahertz fit 32 bits: what is left of
the others does not fit the rest either. -/
theorem parts_iff (frequency : ℕ) :
    (frequency / freqOneMhz % 2 ^ 32 * freqOneMhz +
        (frequency - frequency / freqOneMhz % 2 ^ 32 * freqOneMhz) % 2 ^ 32 =
          frequency ∧
      (frequency - frequency / freqOneMhz % 2 ^ 32 * freqOneMhz) % 2 ^ 32 <
        freqOneMhz) ↔
      frequency < 2 ^ 32 * freqOneMhz := by
  unfold freqOneMhz
  omega

/-- A call tunes to the frequency asked for if and only if it is below
2 ^ 32 MHz. -/
theorem tunesExactly_iff (host : ByteOrder) (freqHz : UInt64) :
    TunesExactly host freqHz ↔ freqHz.toNat < 2 ^ 32 * freqOneMhz := by
  rw [← parts_iff]
  constructor
  · intro htunes
    obtain ⟨transfer, hsent, hparts⟩ := htunes obligingUsb (fun _ => 0) ⟨0, []⟩
      (hackrfSetFreq_obliging host _ freqHz _)
    obtain ⟨transfer', hsent', hmhz, hhz⟩ :=
      hackrfSetFreq_sent host obligingUsb (fun _ => 0) freqHz ⟨0, []⟩
    rw [hsent, List.append_cancel_left_eq, List.singleton_inj] at hsent'
    rwa [TunesTo, hsent', hmhz, hhz] at hparts
  · intro hparts usb stack s _
    obtain ⟨transfer, hsent, hmhz, hhz⟩ :=
      hackrfSetFreq_sent host usb stack freqHz s
    refine ⟨transfer, hsent, ?_⟩
    rwa [TunesTo, hmhz, hhz]

/-- Asked for 2 ^ 32 MHz, the device is tuned to zero. -/
theorem tunesExactly_fails :
    ¬ TunesExactly .little 4294967296000000 := by
  intro htunes
  obtain ⟨transfer, hsent, hsum, -⟩ := htunes obligingUsb (fun _ => 0) ⟨0, []⟩
    (hackrfSetFreq_obliging .little _ _ _)
  obtain ⟨transfer', hsent', hmhz, hhz⟩ := hackrfSetFreq_sent .little
    obligingUsb (fun _ => 0) 4294967296000000 ⟨0, []⟩
  rw [hsent, List.append_cancel_left_eq, List.singleton_inj] at hsent'
  rw [hsent', hmhz, hhz] at hsum
  exact absurd hsum (by decide)

end HackRF
