import HackRF.RequestTrace

/-!
# What the calls write

A call that reads from the device is given an address.  It writes at most the
bytes which it asks for from there on, and the version string its terminating
zero behind them; a call that is refused before its transfer writes nothing.
So a run of calls leaves alone whatever lies outside the caller's buffers.
-/

namespace HackRF

open ByteMemory

/-- The bytes a caller hands to a call for writing. -/
structure Buffer where
  addr : ℕ
  size : ℕ
  deriving DecidableEq, Repr

def Buffer.Avoids (buffer : Buffer) (a : ℕ) : Prop :=
  a < buffer.addr ∨ buffer.addr + buffer.size ≤ a

/-- The buffer holds what the transfer of the call asks for: two bytes for the
SPI flash status, although one is enough for the call, and up to `length` for
the version string, behind which the call puts the terminating zero. -/
def ApiRequest.buffer : ApiRequest → Buffer
  | .max2837Read _ value => ⟨value, 2⟩
  | .si5351cRead _ value => ⟨value, 2⟩
  | .rffc5071Read _ value => ⟨value, 2⟩
  | .spiflashRead _ length data => ⟨data, length.toNat⟩
  | .spiflashStatus data => ⟨data, 2⟩
  | .boardIdRead value => ⟨value, 1⟩
  | .versionStringRead version length => ⟨version, length.toNat + 1⟩
  | .boardPartidSerialnoRead readPartidSerialno => ⟨readPartidSerialno, 24⟩
  | .cpldChecksum crc => ⟨crc, 4⟩
  | .getOperacakeBoards boards => ⟨boards, 8⟩
  | .operacakeGpioTest _ testResult => ⟨testResult, 2⟩
  | _ => ⟨0, 0⟩

/-- libusb delivers no more than there is room for. -/
def Bus.FitsRoom (bus : Bus) : Prop :=
  ∀ request value index length,
    (bus.fetch ⟨request, value, index, .into length⟩).result ≤ length

/-- A call that writes only into a buffer, and nothing if it is refused. -/
structure BusCall.WritesIn (buffer : Buffer) (call : BusCall) : Prop where
  inside : ∀ s a, buffer.Avoids a → (call s).2.mem a = s.mem a
  refused : ∀ s, (call s).1 ≠ .success → (call s).1 ≠ .libusb →
    (call s).2.mem = s.mem

section Writes

variable {bus : Bus} {buffer : Buffer}

theorem BusCall.WritesIn.of_mem_eq {call : BusCall}
    (hmem : ∀ s, (call s).2.mem = s.mem) : BusCall.WritesIn buffer call where
  inside := fun s a _ => congrFun (hmem s) a
  refused := fun s _ _ => hmem s

theorem writesIn_sendOut {tooShort : ℤ → Bool} {transfer : ControlTransfer} :
    BusCall.WritesIn buffer (bus.sendOut tooShort transfer) := by
  apply BusCall.WritesIn.of_mem_eq
  intro s
  simp only [Bus.sendOut]
  split_ifs <;> rfl

theorem writesIn_command {request : HackrfVendorRequest} {value index : ℕ} :
    BusCall.WritesIn buffer (bus.command request value index) :=
  writesIn_sendOut

theorem receive_of_outside {s : BusState} {addr length a : ℕ}
    (reply : ControlReply) (houtside : a < addr ∨ addr + length ≤ a) :
    (s.receive addr length reply).mem a = s.mem a := by
  cases reply with
  | failed code => rfl
  | received data =>
      apply fill_of_outside
      rw [List.length_take]
      omega

theorem writesIn_fetchInto {request : HackrfVendorRequest}
    {value index length addr : ℕ} {least : ℤ}
    (hlow : buffer.addr ≤ addr)
    (hhigh : addr + length ≤ buffer.addr + buffer.size) :
    BusCall.WritesIn buffer
      (bus.fetchInto request value index length least addr) where
  inside := by
    intro s a havoids
    have houtside : a < addr ∨ addr + length ≤ a :=
      havoids.imp (fun hlt => hlt.trans_le hlow) hhigh.trans
    simp only [Bus.fetchInto]
    split_ifs <;> exact receive_of_outside _ houtside
  refused := by
    intro s hsuccess hlibusb
    simp only [Bus.fetchInto] at hsuccess hlibusb
    split_ifs at hsuccess hlibusb
    · exact absurd rfl hlibusb
    · exact absurd rfl hsuccess

theorem writesIn_if {p : Prop} [Decidable p] {code : HackrfError}
    {call : BusCall} (hcall : ¬p → BusCall.WritesIn buffer call) :
    BusCall.WritesIn buffer fun s => if p then (code, s) else call s := by
  by_cases hp : p
  · apply BusCall.WritesIn.of_mem_eq
    intro s
    simp [hp]
  · simpa only [hp, if_false] using hcall hp

theorem writesIn_usbApiRequired {version : ℕ} {call : BusCall}
    (hcall : BusCall.WritesIn buffer call) :
    BusCall.WritesIn buffer (bus.usbApiRequired version call) := by
  cases hanswer : bus.deviceDescriptor with
  | ok usbVersion =>
      by_cases hold : usbVersion < version
      · apply BusCall.WritesIn.of_mem_eq
        intro s
        simp [Bus.usbApiRequired, Bus.hackrfUsbApiVersionRead, hanswer, hold]
      · constructor
        · intro s
          simpa [Bus.usbApiRequired, Bus.hackrfUsbApiVersionRead, hanswer,
            hold] using hcall.inside (s.log (.descriptor (.ok usbVersion)))
        · intro s
          simpa [Bus.usbApiRequired, Bus.hackrfUsbApiVersionRead, hanswer,
            hold] using hcall.refused (s.log (.descriptor (.ok usbVersion)))
  | error result =>
      by_cases hversion : 0 < version
      · apply BusCall.WritesIn.of_mem_eq
        intro s
        simp [Bus.usbApiRequired, Bus.hackrfUsbApiVersionRead, hanswer,
          hversion]
      · constructor
        · intro s
          simpa [Bus.usbApiRequired, Bus.hackrfUsbApiVersionRead, hanswer,
            hversion] using
            hcall.inside ((s.log (.descriptor (.error result))).fail result)
        · intro s
          simpa [Bus.usbApiRequired, Bus.hackrfUsbApiVersionRead, hanswer,
            hversion] using
            hcall.refused ((s.log (.descriptor (.error result))).fail result)

/-- A call whose success is followed by a change inside the buffer. -/
theorem writesIn_update {call : BusCall} {update : BusState → Memory}
    (hupdate : ∀ s a, buffer.Avoids a → update s a = s.mem a)
    (hcall : BusCall.WritesIn buffer call) :
    BusCall.WritesIn buffer fun s =>
      match call s with
      | (.success, s) => (.success, { s with mem := update s })
      | failed => failed where
  inside := by
    intro s a havoids
    have hkept := hcall.inside s a havoids
    cases hout : call s with
    | mk code after =>
        rw [hout] at hkept
        cases code with
        | success => exact (hupdate after a havoids).trans hkept
        | _ => exact hkept
  refused := by
    intro s hsuccess hlibusb
    have hkept := hcall.refused s
    cases hout : call s with
    | mk code after =>
        rw [hout] at hkept
        simp only [hout] at hsuccess hlibusb
        cases code with
        | success => exact absurd rfl hsuccess
        | _ => exact hkept hsuccess hlibusb

theorem writesIn_setGain {request : HackrfVendorRequest} {largest : UInt32}
    {round : UInt32 → UInt32} {value : UInt32} :
    BusCall.WritesIn buffer (bus.setGain request largest round value) := by
  apply writesIn_if
  intro _
  apply BusCall.WritesIn.of_mem_eq
  intro s
  dsimp only
  split
  · split_ifs <;> rfl
  · rfl

theorem writesIn_registerWrite {request : HackrfVendorRequest}
    {registers values registerNumber value : ℕ} :
    BusCall.WritesIn buffer
      (bus.registerWrite request registers values registerNumber value) :=
  writesIn_if fun _ => writesIn_if fun _ => writesIn_command

theorem writesIn_registerRead {request : HackrfVendorRequest}
    {registers registerNumber : UInt8} {value : ℕ} :
    BusCall.WritesIn ⟨value, 2⟩
      (bus.registerRead request registers registerNumber value) :=
  writesIn_if fun _ => writesIn_fetchInto le_rfl le_rfl

theorem writesIn_si5351cRead {host : ByteOrder} {registerNumber : UInt16}
    {value : ℕ} :
    BusCall.WritesIn ⟨value, 2⟩
      (bus.hackrfSi5351cRead host registerNumber value) := by
  apply writesIn_if
  intro _
  constructor
  · intro s a havoids
    dsimp only
    split
    · exact store_of_outside havoids
    · rfl
  · intro s hsuccess hlibusb
    dsimp only at hsuccess hlibusb ⊢
    split at hsuccess
    · exact absurd rfl hsuccess
    · rfl

theorem correctWord_of_outside {host : ByteOrder} {addr a : ℕ} {mem : Memory}
    (houtside : a < addr ∨ addr + 4 ≤ a) :
    correctWord host addr mem a = mem a :=
  store_of_outside houtside

theorem correctWords_of_outside {host : ByteOrder} {addr count a : ℕ}
    {mem : Memory} (houtside : a < addr ∨ addr + 4 * count ≤ a) :
    correctWords host addr count mem a = mem a := by
  induction count with
  | zero => rfl
  | succ count ih =>
      rw [correctWords, List.range_succ, List.foldl_append, List.foldl_cons,
        List.foldl_nil, correctWord_of_outside (by omega)]
      exact ih (by omega)

/-- The terminating zero goes at most one byte behind the bytes asked for. -/
theorem writesIn_versionStringRead (hroom : bus.FitsRoom) {version : ℕ}
    {length : UInt8} :
    BusCall.WritesIn ⟨version, length.toNat + 1⟩
      (bus.hackrfVersionStringRead version length) := by
  have hresult := hroom .versionStringRead 0 0 length.toNat
  apply @writesIn_update _ _ fun s => fill _ [0] s.mem
  · intro s a havoids
    apply fill_of_outside
    simp only [Buffer.Avoids] at havoids
    rw [List.length_singleton]
    omega
  · exact writesIn_fetchInto le_rfl (Nat.le_succ _)

end Writes

theorem ApiRequest.writesIn (host : Host) {bus : Bus} (hroom : bus.FitsRoom)
    (call : ApiRequest) :
    BusCall.WritesIn call.buffer (call.run host bus) := by
  cases call with
  | setTransceiverMode value | setAmpEnable value | setAntennaEnable value
  | spiflashErase => exact writesIn_command
  | setBasebandFilterBandwidth bandwidthHz | setFreq freqHz
  | setFreqExplicit ifFreqHz loFreqHz path
  | setSampleRateManual freqHz divider | initSweep args =>
      exact .of_mem_eq fun _ => rfl
  | setLnaGain value =>
      exact @writesIn_setGain bus _ _ _ (· &&& ~~~0x07) value
  | setVgaGain value =>
      exact @writesIn_setGain bus _ _ _ (· &&& ~~~0x01) value
  | setTxvgaGain value => exact @writesIn_setGain bus _ _ _ id value
  | setHwSyncMode value | setClkoutEnable value | reset
  | spiflashClearStatus => exact writesIn_usbApiRequired writesIn_command
  | max2837Write registerNumber value | si5351cWrite registerNumber value =>
      exact writesIn_registerWrite
  | rffc5071Write registerNumber value =>
      exact writesIn_if fun _ => writesIn_command
  | max2837Read registerNumber value | rffc5071Read registerNumber value =>
      exact writesIn_registerRead
  | si5351cRead registerNumber value => exact writesIn_si5351cRead
  | spiflashWrite address length data =>
      apply writesIn_if
      intro _
      exact .of_mem_eq fun s => by
        simp only [Bus.sendOut]
        split_ifs <;> rfl
  | spiflashRead address length data =>
      exact writesIn_if fun _ => writesIn_fetchInto le_rfl le_rfl
  | spiflashStatus data | getOperacakeBoards boards =>
      exact writesIn_usbApiRequired (writesIn_fetchInto le_rfl le_rfl)
  | boardIdRead value => exact writesIn_fetchInto le_rfl le_rfl
  | versionStringRead version length => exact writesIn_versionStringRead hroom
  | boardPartidSerialnoRead readPartidSerialno =>
      exact writesIn_update
        (fun _ _ havoids => correctWords_of_outside havoids)
        (writesIn_fetchInto le_rfl le_rfl)
  | cpldChecksum crc =>
      exact writesIn_usbApiRequired
        (writesIn_update (fun _ _ havoids => correctWord_of_outside havoids)
          (writesIn_fetchInto le_rfl le_rfl))
  | setOperacakePorts address portA portB =>
      exact writesIn_usbApiRequired
        (writesIn_if fun _ => writesIn_if fun _ => writesIn_command)
  | setOperacakeRanges ranges lenRanges =>
      apply writesIn_usbApiRequired
      exact .of_mem_eq fun s => by
        simp only [Bus.sendOut]
        split_ifs <;> rfl
  | operacakeGpioTest address testResult =>
      exact writesIn_usbApiRequired (writesIn_fetchInto le_rfl le_rfl)

/-! ## Runs of calls -/

theorem BusState.after_mem {calls : List RequestCall}
    (hroom : ∀ call ∈ calls, call.bus.FitsRoom) {a : ℕ}
    (havoids : ∀ call ∈ calls, call.request.buffer.Avoids a) (s : BusState) :
    (s.after calls).mem a = s.mem a := by
  induction calls generalizing s with
  | nil => rfl
  | cons call rest ih =>
      have hwrites := call.request.writesIn call.host
        (hroom call List.mem_cons_self)
      have hcall : (call.run s).2.mem a = s.mem a :=
        hwrites.inside s a (havoids call List.mem_cons_self)
      rw [← hcall]
      apply ih
      · exact fun other hother => hroom other (List.mem_cons_of_mem _ hother)
      · exact fun other hother => havoids other (List.mem_cons_of_mem _ hother)

/-- A run of calls changes no byte outside the buffers handed to it, provided
libusb delivers no more than there is room for, and a call which it ends with
changes no byte at all unless it succeeds or a transfer fails. -/
theorem memory_of_run (mem : Memory) (calls : List RequestCall)
    (call : RequestCall)
    (hroom : ∀ made ∈ calls ++ [call], made.bus.FitsRoom) :
    let s := (BusState.start mem).after calls
    (∀ a, (∀ made ∈ calls ++ [call], made.request.buffer.Avoids a) →
      (call.run s).2.mem a = mem a) ∧
    ((call.run s).1 ≠ .success → (call.run s).1 ≠ .libusb →
      (call.run s).2.mem = s.mem) := by
  intro s
  have hlast : call ∈ calls ++ [call] := by simp
  have hwrites := call.request.writesIn call.host (hroom call hlast)
  constructor
  · intro a havoids
    have hbefore : s.mem a = mem a :=
      BusState.after_mem
        (fun made hmade => hroom made (List.mem_append_left _ hmade))
        (fun made hmade => havoids made (List.mem_append_left _ hmade))
        (BusState.start mem)
    exact (hwrites.inside s a (havoids call hlast)).trans hbefore
  · exact hwrites.refused s

theorem Bus.obliging_fitsRoom : Bus.obliging.FitsRoom := by
  intro request value index length
  simp [Bus.obliging, ControlReply.result]

/-- A version string of 255 bytes ends with the 256th byte of its buffer. -/
theorem memory_of_run_version :
    let call : RequestCall := ⟨.plain, .obliging, .versionStringRead 1000 255⟩
    let s := (BusState.start fun _ => 7).after
      [⟨.plain, .obliging, .boardIdRead 500⟩]
    (∀ a, (∀ made ∈ [⟨.plain, .obliging, .boardIdRead 500⟩] ++ [call],
        made.request.buffer.Avoids a) → (call.run s).2.mem a = 7) ∧
    ((call.run s).1 ≠ .success → (call.run s).1 ≠ .libusb →
      (call.run s).2.mem = s.mem) := by
  apply memory_of_run (fun _ => 7)
  intro made hmade
  rcases List.mem_append.mp hmade with hmade | hmade
  · rw [List.mem_singleton.mp hmade]
    exact Bus.obliging_fitsRoom
  · rw [List.mem_singleton.mp hmade]
    exact Bus.obliging_fitsRoom

end HackRF
