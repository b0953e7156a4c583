import HackRF.RequestTrace

/-!
# Requests tell the calls apart

A control transfer travels as the eight bytes of its setup packet and the
bytes of its data stage.  `Command` is what a call asks for.  On a little-endian
host an accepted call makes a request and every other call is refused without
one, and two successful calls with the same bytes on the bus ask for the same.

What the firmware does with a request is not part of the repository.  That the
bytes determine the commands is proved by reading them back with
`readRequest`.
-/

namespace HackRF

open ByteMemory

inductive Chip where
  | max2837
  | si5351c
  | rffc5071
  deriving DecidableEq, Repr

/-- What a call tells the device to do, or asks it for. -/
inductive Command where
  | setMode (mode : ℕ)
  | writeRegister (chip : Chip) (register value : ℕ)
  | readRegister (chip : Chip) (register : ℕ)
  | setSampleRate (freqHz divider : ℕ)
  | setFilter (bandwidthHz : ℕ)
  | tune (freqHz : ℕ)
  | tuneExplicit (ifFreqHz loFreqHz path : ℕ)
  | startSweep (parameters : Sweep.SweepParameters)
  | setAmp (value : ℕ)
  | setAntenna (value : ℕ)
  | setLnaGain (db : ℕ)
  | setVgaGain (db : ℕ)
  | setTxvgaGain (db : ℕ)
  | setHwSync (value : ℕ)
  | setClkout (value : ℕ)
  | reset
  | eraseFlash
  | writeFlash (address : ℕ) (data : List UInt8)
  | readFlash (address length : ℕ)
  | flashStatus
  | clearFlashStatus
  | boardId
  | versionString (length : ℕ)
  | partidSerialno
  | cpldChecksum
  | operacakeBoards
  | setOperacakePorts (address portA portB : ℕ)
  | setOperacakeRanges (ranges : List UInt8)
  | testOperacake (address : ℕ)
  deriving DecidableEq, Repr

/-! ## Bytes on the bus -/

/-- The direction bit of the request, with the type bits of a vendor request
to the device. -/
def HackrfVendorRequest.requestType : HackrfVendorRequest → ℕ
  | .max2837Read => 0xC0
  | .si5351cRead => 0xC0
  | .rffc5071Read => 0xC0
  | .spiflashRead => 0xC0
  | .boardIdRead => 0xC0
  | .versionStringRead => 0xC0
  | .boardPartidSerialnoRead => 0xC0
  | .setLnaGain => 0xC0
  | .setVgaGain => 0xC0
  | .setTxvgaGain => 0xC0
  | .operacakeGetBoards => 0xC0
  | .spiflashStatus => 0xC0
  | .operacakeGpioTest => 0xC0
  | .cpldChecksum => 0xC0
  | _ => 0x40

def DataStage.requestType : DataStage → ℕ
  | .into _ => 0xC0
  | _ => 0x40

def DataStage.length : DataStage → ℕ
  | .none => 0
  | .out data => data.length
  | .into length => length

/-- The bytes that go to the device in the data stage. -/
def DataStage.sent : DataStage → List UInt8
  | .out data => data
  | _ => []

def ControlTransfer.setup (transfer : ControlTransfer) : List UInt8 :=
  [transfer.stage.requestType, transfer.request.code].flatMap (encode 1) ++
    [transfer.value, transfer.index, transfer.stage.length].flatMap (encode 2)

def HackrfVendorRequest.all : List HackrfVendorRequest :=
  [.setTransceiverMode, .max2837Write, .max2837Read, .si5351cWrite,
    .si5351cRead, .sampleRateSet, .basebandFilterBandwidthSet, .rffc5071Write,
    .rffc5071Read, .spiflashErase, .spiflashWrite, .spiflashRead, .boardIdRead,
    .versionStringRead, .setFreq, .ampEnable, .boardPartidSerialnoRead,
    .setLnaGain, .setVgaGain, .setTxvgaGain, .antennaEnable, .setFreqExplicit,
    .usbWcidVendorReq, .initSweep, .operacakeGetBoards, .operacakeSetPorts,
    .setHwSyncMode, .reset, .operacakeSetRanges, .clkoutEnable,
    .spiflashStatus, .spiflashClearStatus, .operacakeGpioTest, .cpldChecksum]

def HackrfVendorRequest.ofCode (code : ℕ) : Option HackrfVendorRequest :=
  HackrfVendorRequest.all.find? fun request => request.code = code

@[simp] theorem HackrfVendorRequest.ofCode_code
    (request : HackrfVendorRequest) : ofCode request.code = some request := by
  cases request <;> decide

/-- The command of a call whose request has these setup words and data.  This
inverts what the calls send and says nothing about the firmware. -/
def HackrfVendorRequest.command (value index length : ℕ) (data : List UInt8) :
    HackrfVendorRequest → Option Command
  | .setTransceiverMode => some (.setMode value)
  | .max2837Write => some (.writeRegister .max2837 index value)
  | .max2837Read => some (.readRegister .max2837 index)
  | .si5351cWrite => some (.writeRegister .si5351c index value)
  | .si5351cRead => some (.readRegister .si5351c index)
  | .sampleRateSet => some (.setSampleRate (decode 4 0 data) (decode 4 4 data))
  | .basebandFilterBandwidthSet => some (.setFilter (value + 65536 * index))
  | .rffc5071Write => some (.writeRegister .rffc5071 index value)
  | .rffc5071Read => some (.readRegister .rffc5071 index)
  | .spiflashErase => some .eraseFlash
  | .spiflashWrite => some (.writeFlash (65536 * value + index) data)
  | .spiflashRead => some (.readFlash (65536 * value + index) length)
  | .boardIdRead => some .boardId
  | .versionStringRead => some (.versionString length)
  | .setFreq =>
      some (.tune (decode 4 0 data * freqOneMhz + decode 4 4 data))
  | .ampEnable => some (.setAmp value)
  | .boardPartidSerialnoRead => some .partidSerialno
  | .setLnaGain => some (.setLnaGain index)
  | .setVgaGain => some (.setVgaGain index)
  | .setTxvgaGain => some (.setTxvgaGain index)
  | .antennaEnable => some (.setAntenna value)
  | .setFreqExplicit =>
      some (.tuneExplicit (decode 8 0 data) (decode 8 8 data)
        (decode 1 16 data))
  | .usbWcidVendorReq => none
  | .initSweep =>
      some (.startSweep (Sweep.decodeInitSweep ⟨.initSweep, value, index, data⟩))
  | .operacakeGetBoards => some .operacakeBoards
  | .operacakeSetPorts =>
      some (.setOperacakePorts value (index % 256) (index / 256))
  | .setHwSyncMode => some (.setHwSync value)
  | .reset => some .reset
  | .operacakeSetRanges => some (.setOperacakeRanges data)
  | .clkoutEnable => some (.setClkout value)
  | .spiflashStatus => some .flashStatus
  | .spiflashClearStatus => some .clearFlashStatus
  | .operacakeGpioTest => some (.testOperacake value)
  | .cpldChecksum => some .cpldChecksum

/-- The command of a call which puts these bytes on the bus, and none for bytes
which no call puts there in this direction. -/
def readRequest (setup data : List UInt8) : Option Command :=
  (HackrfVendorRequest.ofCode (decode 1 1 setup)).bind fun request =>
    if decode 1 0 setup = request.requestType then
      request.command (decode 2 2 setup) (decode 2 4 setup) (decode 2 6 setup)
        data
    else none

/-- The bytes of a transfer that reach the device: its setup packet and its
data stage. -/
def ControlTransfer.bytes (transfer : ControlTransfer) :
    List UInt8 × List UInt8 :=
  (transfer.setup, transfer.stage.sent)

def ControlTransfer.arrives (transfer : ControlTransfer) : Option Command :=
  readRequest transfer.setup transfer.stage.sent

/-- The fields fit their places in the setup packet. -/
structure ControlTransfer.Fits (transfer : ControlTransfer) : Prop where
  direction : transfer.stage.requestType = transfer.request.requestType
  value : transfer.value < 65536
  index : transfer.index < 65536
  length : transfer.stage.length < 65536

theorem HackrfVendorRequest.code_lt (request : HackrfVendorRequest) :
    request.code < 256 := by
  cases request <;> decide

theorem ControlTransfer.Fits.arrives_eq {transfer : ControlTransfer}
    (hfits : transfer.Fits) :
    transfer.arrives =
      transfer.request.command transfer.value transfer.index
        transfer.stage.length transfer.stage.sent := by
  have hcode := transfer.request.code_lt
  have htype : transfer.stage.requestType < 256 := by
    cases transfer.stage <;> simp [DataStage.requestType]
  let bytes : List ℕ := [transfer.stage.requestType, transfer.request.code]
  let words : List ℕ :=
    [transfer.value, transfer.index, transfer.stage.length]
  have hbyte : ∀ k (hk : k < bytes.length),
      decode 1 k transfer.setup = bytes[k] % 256 := by
    intro k hk
    have hdecode := @decode_flatMap 1 k bytes hk [] (words.flatMap (encode 2))
    simpa [ControlTransfer.setup, bytes, words] using hdecode
  have hword : ∀ k (hk : k < words.length),
      decode 2 (2 + 2 * k) transfer.setup = words[k] % 65536 := by
    intro k hk
    have hdecode := @decode_flatMap 2 k words hk (bytes.flatMap (encode 1)) []
    rw [flatMap_encode_length, List.append_nil] at hdecode
    exact hdecode
  have htype' : decode 1 0 transfer.setup = transfer.request.requestType := by
    rw [hbyte 0 (by simp [bytes])]
    exact (Nat.mod_eq_of_lt htype).trans hfits.direction
  have hcode' : decode 1 1 transfer.setup = transfer.request.code := by
    rw [hbyte 1 (by simp [bytes])]
    exact Nat.mod_eq_of_lt hcode
  have hvalue : decode 2 2 transfer.setup = transfer.value := by
    rw [hword 0 (by simp [words])]
    exact Nat.mod_eq_of_lt hfits.value
  have hindex : decode 2 4 transfer.setup = transfer.index := by
    rw [hword 1 (by simp [words])]
    exact Nat.mod_eq_of_lt hfits.index
  have hlength : decode 2 6 transfer.setup = transfer.stage.length := by
    rw [hword 2 (by simp [words])]
    exact Nat.mod_eq_of_lt hfits.length
  rw [ControlTransfer.arrives, readRequest, hcode', htype', hvalue, hindex,
    hlength, HackrfVendorRequest.ofCode_code, Option.bind_some, if_pos rfl]

/-! ## What a call has sent -/

def BusEvent.bytes : BusEvent → Option (List UInt8 × List UInt8)
  | .descriptor _ => none
  | .control transfer _ => some transfer.bytes

/-- The bytes of the requests among some events. -/
def requestBytes (events : List BusEvent) : List (List UInt8 × List UInt8) :=
  events.filterMap BusEvent.bytes

def BusEvent.arrives : BusEvent → Option (Option Command)
  | .descriptor _ => none
  | .control transfer _ => some transfer.arrives

theorem arrives_eq_map_requestBytes (events : List BusEvent) :
    events.filterMap BusEvent.arrives =
      (requestBytes events).map fun bytes => readRequest bytes.1 bytes.2 := by
  induction events with
  | nil => rfl
  | cons event rest ih =>
      cases event with
      | descriptor answer => exact ih
      | control transfer result => exact congrArg (transfer.arrives :: ·) ih

/-- The requests of an accepted call read back as its commands, all of them if
it succeeds; a call that is not accepted is refused and sends nothing. -/
structure Arrives (accepted : Prop) (commands : List Command) (s : BusState)
    (out : HackrfError × BusState) (events : List BusEvent) : Prop where
  trace : out.2.trace = s.trace ++ events
  sent : events.filterMap BusEvent.arrives <+: commands.map some
  accepted_iff : accepted ↔ events.filterMap BusEvent.arrives ≠ []
  success : out.1 = .success →
    events.filterMap BusEvent.arrives = commands.map some
  refused : ¬accepted → out.1 = .invalidParam ∨ out.1 = .usbApiVersion

section Calls

variable {commands : List Command} {s : BusState} {bus : Bus}

theorem Arrives.of_iff {accepted accepted' : Prop}
    {out : HackrfError × BusState}
    (hiff : accepted' ↔ accepted)
    (harrives : ∃ events, Arrives accepted commands s out events) :
    ∃ events, Arrives accepted' commands s out events := by
  rw [hiff]
  exact harrives

theorem arrives_refused {code : HackrfError}
    (hcode : code = .invalidParam ∨ code = .usbApiVersion) :
    Arrives False commands s (code, s) [] where
  trace := by simp
  sent := List.nil_prefix
  accepted_iff := by simp
  success := by rcases hcode with rfl | rfl <;> simp
  refused := fun _ => hcode

theorem arrives_control {out : HackrfError × BusState}
    {transfer : ControlTransfer} {result : ℤ} {command : Command}
    (htrace : out.2.trace = s.trace ++ [.control transfer result])
    (hfits : transfer.Fits)
    (hcommand : transfer.request.command transfer.value transfer.index
      transfer.stage.length transfer.stage.sent = some command) :
    Arrives True [command] s out [.control transfer result] where
  trace := htrace
  sent := by simp [BusEvent.arrives, hfits.arrives_eq, hcommand]
  accepted_iff := by simp [BusEvent.arrives]
  success := by simp [BusEvent.arrives, hfits.arrives_eq, hcommand]
  refused := fun hfalse => absurd trivial hfalse

theorem arrives_if {p accepted : Prop} [Decidable p]
    {out : HackrfError × BusState}
    (hout : ¬p → ∃ events, Arrives accepted commands s out events) :
    ∃ events, Arrives (¬p ∧ accepted) commands s
      (if p then (.invalidParam, s) else out) events := by
  split_ifs with hp
  · simp only [hp, not_true, false_and]
    exact ⟨[], arrives_refused (.inl rfl)⟩
  · simpa only [hp, not_false_iff, true_and] using hout hp

theorem Arrives.descriptor {p : Prop} {s' : BusState}
    {out : HackrfError × BusState} {events : List BusEvent}
    {answer : Except ℤ ℕ}
    (htrace : s'.trace = s.trace ++ [.descriptor answer])
    (hevents : Arrives p commands s' out events) :
    Arrives p commands s out (.descriptor answer :: events) where
  trace := by
    rw [hevents.trace, htrace, List.append_assoc, List.singleton_append]
  sent := hevents.sent
  accepted_iff := hevents.accepted_iff
  success := hevents.success
  refused := hevents.refused

theorem arrives_usbApiRequired {version : ℕ} {accepted : Prop}
    {call : BusCall} (hversion : 0 < version)
    (hcall : ∀ s', s'.mem = s.mem →
      ∃ events, Arrives accepted commands s' (call s') events) :
    ∃ events, Arrives (version ≤ knownVersion bus.deviceDescriptor ∧ accepted)
      commands s (bus.usbApiRequired version call s) events := by
  by_cases hold : knownVersion bus.deviceDescriptor < version
  · have hfalse : (version ≤ knownVersion bus.deviceDescriptor ∧ accepted) ↔
        False := iff_of_false (fun hboth => absurd hboth.1 (not_le.mpr hold)) id
    rw [hfalse]
    cases hanswer : bus.deviceDescriptor with
    | ok usbVersion =>
        rw [hanswer] at hold
        have hold : usbVersion < version := hold
        refine ⟨_, @Arrives.descriptor _ s False
          (s.log (.descriptor (.ok usbVersion))) _ [] _ rfl ?_⟩
        simp only [Bus.usbApiRequired, Bus.hackrfUsbApiVersionRead, hanswer,
          hold, if_true]
        exact arrives_refused (.inr rfl)
    | error result =>
        refine ⟨_, @Arrives.descriptor _ s False
          ((s.log (.descriptor (.error result))).fail result) _ [] _ rfl ?_⟩
        simp only [Bus.usbApiRequired, Bus.hackrfUsbApiVersionRead, hanswer,
          hversion, if_true]
        exact arrives_refused (.inr rfl)
  · have htrue : (version ≤ knownVersion bus.deviceDescriptor ∧ accepted) ↔
        accepted := and_iff_right (not_lt.mp hold)
    rw [htrue]
    cases hanswer : bus.deviceDescriptor with
    | ok usbVersion =>
        rw [hanswer] at hold
        have hold : ¬usbVersion < version := hold
        obtain ⟨events, hevents⟩ :=
          hcall (s.log (.descriptor (.ok usbVersion))) rfl
        refine ⟨_, @Arrives.descriptor _ s accepted
          (s.log (.descriptor (.ok usbVersion))) _ events _ rfl ?_⟩
        simpa only [Bus.usbApiRequired, Bus.hackrfUsbApiVersionRead, hanswer,
          hold, if_false] using hevents
    | error result =>
        rw [hanswer] at hold
        exact absurd hversion hold

theorem arrives_sendOut {tooShort : ℤ → Bool} {transfer : ControlTransfer}
    {command : Command} (hfits : transfer.Fits)
    (hcommand : transfer.request.command transfer.value transfer.index
      transfer.stage.length transfer.stage.sent = some command) :
    ∃ events, Arrives True [command] s (bus.sendOut tooShort transfer s)
      events := by
  refine ⟨[.control transfer (bus.send transfer)],
    arrives_control ?_ hfits hcommand⟩
  simp only [Bus.sendOut]
  split_ifs <;> simp

theorem arrives_command {request : HackrfVendorRequest} {value index : ℕ}
    {command : Command}
    (hdirection : request.requestType = 0x40) (hvalue : value < 65536)
    (hindex : index < 65536)
    (hcommand : request.command value index 0 [] = some command) :
    ∃ events, Arrives True [command] s (bus.command request value index s)
      events :=
  arrives_sendOut ⟨hdirection.symm, hvalue, hindex, Nat.zero_lt_succ _⟩ hcommand

theorem arrives_fetchInto {request : HackrfVendorRequest}
    {value index length : ℕ} {least : ℤ} {addr : ℕ} {command : Command}
    (hdirection : request.requestType = 0xC0) (hvalue : value < 65536)
    (hindex : index < 65536) (hlength : length < 65536)
    (hcommand : request.command value index length [] = some command) :
    ∃ events, Arrives True [command] s
      (bus.fetchInto request value index length least addr s) events :=
  ⟨_, arrives_control Bus.fetchInto_trace
    ⟨hdirection.symm, hvalue, hindex, hlength⟩ hcommand⟩

theorem arrives_setGain {request : HackrfVendorRequest} {largest : UInt32}
    {round : UInt32 → UInt32} {value : UInt32} {command : Command}
    (hdirection : request.requestType = 0xC0)
    (hround : ¬value > largest → (round value).toNat < 65536)
    (hcommand : ¬value > largest →
      request.command 0 (round value).toNat 1 [] = some command) :
    ∃ events, Arrives (¬value > largest ∧ True) [command] s
      (bus.setGain request largest round value s) events := by
  apply arrives_if
  intro hlarge
  let transfer : ControlTransfer := ⟨request, 0, (round value).toNat, .into 1⟩
  refine ⟨_, @arrives_control _ _ transfer (bus.fetch transfer).result _ ?_
    ⟨hdirection.symm, Nat.zero_lt_succ _, hround hlarge,
      Nat.one_lt_succ_succ _⟩
    (hcommand hlarge)⟩
  dsimp only
  split
  · split_ifs <;> simp [transfer]
  · simp [transfer]

theorem arrives_registerWrite {request : HackrfVendorRequest}
    {registers values registerNumber value : ℕ} {command : Command}
    (hdirection : request.requestType = 0x40) (hvalue : value < 65536)
    (hregister : registerNumber < 65536)
    (hcommand : request.command value registerNumber 0 [] = some command) :
    ∃ events, Arrives (¬registerNumber ≥ registers ∧ ¬value ≥ values ∧ True)
      [command] s
      (bus.registerWrite request registers values registerNumber value s)
      events := by
  apply arrives_if
  intro _
  apply arrives_if
  intro _
  exact arrives_command hdirection hvalue hregister hcommand

theorem arrives_registerRead {request : HackrfVendorRequest}
    {registers registerNumber : UInt8} {addr : ℕ} {command : Command}
    (hdirection : request.requestType = 0xC0)
    (hcommand : request.command 0 registerNumber.toNat 2 [] = some command) :
    ∃ events, Arrives (¬registerNumber ≥ registers ∧ True) [command] s
      (bus.registerRead request registers registerNumber addr s) events := by
  apply arrives_if
  intro _
  exact arrives_fetchInto hdirection (Nat.zero_lt_succ _)
    (lt_trans registerNumber.toNat_lt (by decide)) (by decide) hcommand

theorem arrives_update {accepted : Prop} {call : BusCall}
    {update : BusState → BusState}
    (htrace : ∀ s, (update s).trace = s.trace)
    (hcall : ∃ events, Arrives accepted commands s (call s) events) :
    ∃ events, Arrives accepted commands s
      (match call s with
        | (.success, s) => (.success, update s)
        | failed => failed) events := by
  obtain ⟨events, hevents⟩ := hcall
  refine ⟨events, ?_⟩
  cases hout : call s with
  | mk code after =>
      rw [hout] at hevents
      cases code with
      | success =>
          exact ⟨(htrace after).trans hevents.trace, hevents.sent,
            hevents.accepted_iff, hevents.success, hevents.refused⟩
      | _ => exact hevents

/-- Two requests, the second made only if the first succeeds. -/
theorem arrives_then {first second : BusCall} {command command' : Command}
    (hfirst : ∃ events, Arrives True [command] s (first s) events)
    (hsecond : ∀ s', ∃ events,
      Arrives True [command'] s' (second s') events) :
    ∃ events, Arrives True [command, command'] s
      (match first s with
        | (.success, s) => second s
        | failed => failed) events := by
  obtain ⟨before, hbefore⟩ := hfirst
  have hnonempty := hbefore.accepted_iff.mp trivial
  cases hout : first s with
  | mk code middle =>
      rw [hout] at hbefore
      by_cases hcode : code = .success
      · subst hcode
        obtain ⟨after, hafter⟩ := hsecond middle
        have hsent := hbefore.success rfl
        have htrace := hbefore.trace
        refine ⟨before ++ after, ?_, ?_, ?_, ?_, fun hfalse => absurd trivial hfalse⟩
        · dsimp only at htrace ⊢
          rw [hafter.trace, htrace, List.append_assoc]
        · rw [List.filterMap_append, hsent]
          exact List.cons_prefix_cons.mpr ⟨rfl, hafter.sent⟩
        · simp [hsent]
        · intro hsuccess
          rw [List.filterMap_append, hsent, hafter.success hsuccess]
          rfl
      · have hfailed : (match (code, middle) with
            | (.success, s) => second s
            | failed => failed) = (code, middle) := by
          cases code <;> first | exact absurd rfl hcode | rfl
        rw [hfailed]
        exact ⟨before, hbefore.trace,
          hbefore.sent.trans (List.prefix_append [some command] [some command']),
          hbefore.accepted_iff, fun hsuccess => absurd hsuccess hcode,
          hbefore.refused⟩

theorem arrives_lift {tooShort : ℤ → Bool} {t : ControlOut}
    {command : Command} (hfits : t.transfer.Fits)
    (hcommand : t.transfer.request.command t.transfer.value t.transfer.index
      t.transfer.stage.length t.transfer.stage.sent = some command) :
    ∃ events, Arrives True [command] s
      (bus.lift (fun usb => sendRequest usb tooShort t) s) events := by
  rw [Bus.lift_sendRequest]
  exact arrives_sendOut hfits hcommand

end Calls

theorem transfer_image {request : VendorRequest} {value index length : ℕ}
    (hlength : length ≠ 0) (mem : Memory) :
    ControlOut.transfer ⟨request, value, index, image length mem⟩ =
      ⟨request.hackrf, value, index, .out (image length mem)⟩ := by
  simp [ControlOut.transfer, image, hlength]

@[simp] theorem image_length {length : ℕ} {mem : Memory} :
    (image length mem).length = length := by
  simp [image]

/-! ## The calls and their commands -/

/-- The arguments a call accepts, and the API version it needs. -/
def ApiRequest.Accepted (bus : Bus) : ApiRequest → Prop
  | .setLnaGain value => value ≤ 40
  | .setVgaGain value => value ≤ 62
  | .setTxvgaGain value => value ≤ 47
  | .setFreqExplicit ifFreqHz loFreqHz path =>
      (ParameterCall.setFreqExplicit ifFreqHz loFreqHz path).Accepted
  | .initSweep args => args.Accepted bus.usb
  | .setHwSyncMode _ => 0x0102 ≤ knownVersion bus.deviceDescriptor
  | .reset => 0x0102 ≤ knownVersion bus.deviceDescriptor
  | .setClkoutEnable _ => 0x0103 ≤ knownVersion bus.deviceDescriptor
  | .max2837Write registerNumber value => registerNumber < 32 ∧ value < 0x400
  | .si5351cWrite registerNumber value => registerNumber < 256 ∧ value < 256
  | .rffc5071Write registerNumber _ => registerNumber < 31
  | .max2837Read registerNumber _ => registerNumber < 32
  | .si5351cRead registerNumber _ => registerNumber < 256
  | .rffc5071Read registerNumber _ => registerNumber < 31
  | .spiflashWrite address _ _ => address.toNat < 2 ^ 20
  | .spiflashRead address _ _ => address.toNat < 2 ^ 20
  | .spiflashStatus _ => 0x0103 ≤ knownVersion bus.deviceDescriptor
  | .spiflashClearStatus => 0x0103 ≤ knownVersion bus.deviceDescriptor
  | .cpldChecksum _ => 0x0103 ≤ knownVersion bus.deviceDescriptor
  | .getOperacakeBoards _ => 0x0102 ≤ knownVersion bus.deviceDescriptor
  | .setOperacakePorts _ portA portB =>
      0x0102 ≤ knownVersion bus.deviceDescriptor ∧
        portA.toNat < 8 ∧ portB.toNat < 8 ∧
        (portA.toNat < 4 ↔ 4 ≤ portB.toNat)
  | .setOperacakeRanges _ _ => 0x0103 ≤ knownVersion bus.deviceDescriptor
  | .operacakeGpioTest _ _ => 0x0103 ≤ knownVersion bus.deviceDescriptor
  | _ => True

/-- The arguments with a meaning: the frequency fits its structure, and the
rate is one. -/
def ApiRequest.InRange : ApiRequest → Prop
  | .setFreq freqHz => freqHz.toNat / freqOneMhz < 2 ^ 32
  | .setSampleRateManual _ divider => divider ≠ 0
  | _ => True

/-- What a call asks for.  The gains are rounded down to a step, and a sample
rate brings with it the filter which the library computes for it. -/
def ApiRequest.commands (mem : Memory) : ApiRequest → List Command
  | .setTransceiverMode value => [.setMode value.code]
  | .setBasebandFilterBandwidth bandwidthHz => [.setFilter bandwidthHz.toNat]
  | .setAmpEnable value => [.setAmp value.toNat]
  | .setAntennaEnable value => [.setAntenna value.toNat]
  | .setLnaGain value => [.setLnaGain (value.toNat / 8 * 8)]
  | .setVgaGain value => [.setVgaGain (value.toNat / 2 * 2)]
  | .setTxvgaGain value => [.setTxvgaGain value.toNat]
  | .setFreq freqHz => [.tune freqHz.toNat]
  | .setFreqExplicit ifFreqHz loFreqHz path =>
      [.tuneExplicit ifFreqHz.toNat loFreqHz.toNat path.toNat]
  | .setSampleRateManual freqHz divider =>
      [.setSampleRate freqHz.toNat divider.toNat,
        .setFilter (hackrfComputeBasebandFilterBw
          (filterBandwidth 0 freqHz divider))]
  | .initSweep args => [.startSweep args.parameters]
  | .setHwSyncMode value => [.setHwSync value.toNat]
  | .reset => [.reset]
  | .setClkoutEnable value => [.setClkout value.toNat]
  | .max2837Write registerNumber value =>
      [.writeRegister .max2837 registerNumber.toNat value.toNat]
  | .si5351cWrite registerNumber value =>
      [.writeRegister .si5351c registerNumber.toNat value.toNat]
  | .rffc5071Write registerNumber value =>
      [.writeRegister .rffc5071 registerNumber.toNat value.toNat]
  | .max2837Read registerNumber _ =>
      [.readRegister .max2837 registerNumber.toNat]
  | .si5351cRead registerNumber _ =>
      [.readRegister .si5351c registerNumber.toNat]
  | .rffc5071Read registerNumber _ =>
      [.readRegister .rffc5071 registerNumber.toNat]
  | .spiflashErase => [.eraseFlash]
  | .spiflashWrite address length data =>
      [.writeFlash address.toNat
        (image length.toNat fun k => mem (data + k))]
  | .spiflashRead address length _ =>
      [.readFlash address.toNat length.toNat]
  | .spiflashStatus _ => [.flashStatus]
  | .spiflashClearStatus => [.clearFlashStatus]
  | .boardIdRead _ => [.boardId]
  | .versionStringRead _ length => [.versionString length.toNat]
  | .boardPartidSerialnoRead _ => [.partidSerialno]
  | .cpldChecksum _ => [.cpldChecksum]
  | .getOperacakeBoards _ => [.operacakeBoards]
  | .setOperacakePorts address portA portB =>
      [.setOperacakePorts address.toNat portA.toNat portB.toNat]
  | .setOperacakeRanges ranges lenRanges =>
      [.setOperacakeRanges
        (image lenRanges.toNat fun k => mem (ranges + k))]
  | .operacakeGpioTest address _ => [.testOperacake address.toNat]

theorem uint8_lt_word (value : UInt8) : value.toNat < 65536 :=
  lt_trans value.toNat_lt (by decide)

/-! ## Rounded gains and split words -/

theorem toNat_lnaGain {value : UInt32} (hle : ¬value > 40) :
    (value &&& ~~~0x07).toNat = value.toNat / 8 * 8 := by
  have hsteps : ∀ k < 41,
      (UInt32.ofNat k &&& ~~~0x07).toNat = k / 8 * 8 := by decide
  have hlt : value.toNat < 41 := Nat.lt_succ_of_le (not_lt.mp hle)
  simpa using hsteps value.toNat hlt

theorem toNat_vgaGain {value : UInt32} (hle : ¬value > 62) :
    (value &&& ~~~0x01).toNat = value.toNat / 2 * 2 := by
  have hsteps : ∀ k < 63,
      (UInt32.ofNat k &&& ~~~0x01).toNat = k / 2 * 2 := by decide
  have hlt : value.toNat < 63 := Nat.lt_succ_of_le (not_lt.mp hle)
  simpa using hsteps value.toNat hlt

/-- The halves of a flash address. -/
theorem address_halves (address : UInt32) :
    (address >>> 16).toNat = address.toNat / 65536 ∧
      (address &&& 0xFFFF).toNat = address.toNat % 65536 := by
  have hmask : address.toNat &&& 65535 = address.toNat % 65536 :=
    Nat.and_two_pow_sub_one_eq_mod address.toNat 16
  simp [Nat.shiftRight_eq_div_pow, hmask]

theorem ports_eq (portA portB : UInt8) :
    portA.toNat ||| portB.toNat <<< 8 = portA.toNat + 256 * portB.toNat := by
  have hlt : portA.toNat < 2 ^ 8 := portA.toNat_lt
  rw [Nat.or_comm, ← Nat.shiftLeft_add_eq_or_of_lt hlt, Nat.shiftLeft_eq]
  omega

theorem hackrfComputeBasebandFilterBw_le (bandwidthHz : ℕ) :
    hackrfComputeBasebandFilterBw bandwidthHz ≤ 28000000 := by
  have hentries : ∀ i, max2837Ft.getD i 0 ≤ 28000000 := by
    intro i
    by_cases hi : i < max2837Ft.length
    · have hall : ∀ i < max2837Ft.length, max2837Ft.getD i 0 ≤ 28000000 := by
        decide
      exact hall i hi
    · simp [List.getD_eq_getElem?_getD, List.getElem?_eq_none (not_lt.mp hi)]
  unfold hackrfComputeBasebandFilterBw
  dsimp only
  split_ifs <;> exact hentries _

/-! ## Call by call -/

namespace Bus

variable {bus : Bus} {s : BusState}

theorem setGain_arrives {request : HackrfVendorRequest} {largest : UInt32}
    {round : UInt32 → UInt32} {value : UInt32} {command : Command} {db : ℕ}
    (hdirection : request.requestType = 0xC0) (hlargest : largest.toNat < 65536)
    (hround : ¬value > largest → (round value).toNat = db)
    (hdb : db ≤ value.toNat)
    (hcommand : request.command 0 db 1 [] = some command) :
    ∃ events, Arrives (value ≤ largest) [command] s
      (bus.setGain request largest round value s) events := by
  have haccepted : value ≤ largest ↔ ¬value > largest ∧ True := by
    rw [and_true, gt_iff_lt, UInt32.not_lt]
  apply Arrives.of_iff haccepted
  apply arrives_setGain hdirection
  · intro hle
    rw [hround hle]
    exact hdb.trans_lt ((not_lt.mp hle).trans_lt hlargest)
  · intro hle
    rwa [hround hle]

theorem hackrfSetBasebandFilterBandwidth_arrives {bandwidthHz : ℕ}
    (hlt : bandwidthHz < 2 ^ 32) :
    ∃ events, Arrives True [.setFilter bandwidthHz] s
      (bus.lift (fun usb => HackRF.hackrfSetBasebandFilterBandwidth usb
        bandwidthHz) s) events := by
  unfold HackRF.hackrfSetBasebandFilterBandwidth
  apply arrives_lift
  · refine ⟨rfl, Nat.mod_lt _ (by decide), ?_, Nat.zero_lt_succ _⟩
    exact Nat.div_lt_of_lt_mul hlt
  · simp only [ControlOut.transfer, VendorRequest.hackrf,
      HackrfVendorRequest.command]
    rw [show 65536 = 2 ^ 16 from rfl, Nat.mod_add_div]

/-- A request with the bytes of a structure. -/
theorem arrives_structure {request : VendorRequest} {length : ℕ}
    {params : Memory} {command : Command} {tooShort : ℤ → Bool}
    (hdirection : request.hackrf.requestType = 0x40) (hpos : length ≠ 0)
    (hlength : length < 65536)
    (hcommand : request.hackrf.command 0 0 length (image length params) =
      some command) :
    ∃ events, Arrives True [command] s
      (bus.lift (fun usb => sendRequest usb tooShort
        ⟨request, 0, 0, image length params⟩) s) events := by
  apply arrives_lift
  · rw [transfer_image hpos]
    refine ⟨hdirection.symm, Nat.zero_lt_succ _, Nat.zero_lt_succ _, ?_⟩
    simpa [DataStage.length] using hlength
  · rw [transfer_image hpos]
    simpa [DataStage.length, DataStage.sent] using hcommand

theorem hackrfSetFreq_arrives (stack : Memory) {freqHz : UInt64}
    (hrange : freqHz.toNat / freqOneMhz < 2 ^ 32) :
    ∃ events, Arrives True [.tune freqHz.toNat] s
      (bus.hackrfSetFreq .little stack freqHz s) events := by
  have hparts : freqHz.toNat / freqOneMhz % 2 ^ 32 * freqOneMhz +
      (freqHz.toNat - freqHz.toNat / freqOneMhz % 2 ^ 32 * freqOneMhz) %
        2 ^ 32 = freqHz.toNat := by
    unfold freqOneMhz at *
    omega
  unfold hackrfSetFreq HackRF.hackrfSetFreq
  apply arrives_structure rfl (by decide) (by decide)
  simp only [VendorRequest.hackrf, HackrfVendorRequest.command, toLe]
  rw [decode_image (by decide), decode_image (by decide),
    load_store_of_disjoint (by decide), load_store, load_store]
  simpa using hparts

/-- The structure of `hackrf_set_freq_explicit`, read back. -/
theorem explicit_command (stack : Memory) (ifFreqHz loFreqHz : UInt64)
    {path : UInt32} (hpath : ¬path > 2) :
    HackrfVendorRequest.command 0 0 24
      (image 24 (store .little 1 16 path.toNat
        (store .little 8 8 loFreqHz.toNat
          (store .little 8 0 ifFreqHz.toNat stack)))) .setFreqExplicit =
      some (.tuneExplicit ifFreqHz.toNat loFreqHz.toNat path.toNat) := by
  have hlt : path.toNat < 256 ^ 1 := (not_lt.mp hpath).trans_lt (by decide)
  rw [HackrfVendorRequest.command, decode_image (by decide),
    decode_image (by decide), decode_image (by decide), load_store,
    load_store_of_disjoint (by decide), load_store_of_disjoint (by decide),
    load_store, load_store_of_disjoint (by decide), load_store,
    Nat.mod_eq_of_lt hlt]
  congr 2
  · exact Nat.mod_eq_of_lt ifFreqHz.toNat_lt
  · exact Nat.mod_eq_of_lt loFreqHz.toNat_lt

theorem hackrfSetFreqExplicit_arrives (stack : Memory)
    (ifFreqHz loFreqHz : UInt64) (path : UInt32) :
    ∃ events, Arrives
      (ParameterCall.setFreqExplicit ifFreqHz loFreqHz path).Accepted
      [.tuneExplicit ifFreqHz.toNat loFreqHz.toNat path.toNat] s
      (bus.hackrfSetFreqExplicit .little stack ifFreqHz loFreqHz path s)
      events := by
  have haccepted :
      (ParameterCall.setFreqExplicit ifFreqHz loFreqHz path).Accepted ↔
        ¬(ifFreqHz < 2150000000 ∨ ifFreqHz > 2750000000) ∧
        ¬(path ≠ rfPathFilterBypass ∧
          (loFreqHz < 84375000 ∨ loFreqHz > 5400000000)) ∧
        ¬path > 2 ∧ True := by
    simp [ParameterCall.Accepted, imp_iff_not_or]
  apply Arrives.of_iff haccepted
  unfold hackrfSetFreqExplicit HackRF.hackrfSetFreqExplicit
  rw [lift_refused]
  apply arrives_if
  intro _
  rw [lift_refused]
  apply arrives_if
  intro _
  rw [lift_refused]
  apply arrives_if
  intro hpath
  apply @arrives_structure bus s .setFreqExplicit 24 _ _ _ rfl (by decide)
    (by decide)
  exact explicit_command stack ifFreqHz loFreqHz hpath

/-- The rate is followed by the filter that goes with it. -/
theorem hackrfSetSampleRateManual_arrives (stack : Memory)
    (undefined freqHz : UInt32) {divider : UInt32} (hdivider : divider ≠ 0) :
    ∃ events, Arrives True
      [.setSampleRate freqHz.toNat divider.toNat,
        .setFilter (hackrfComputeBasebandFilterBw
          (filterBandwidth 0 freqHz divider))] s
      (bus.hackrfSetSampleRateManual .little stack undefined freqHz divider s)
      events := by
  let bandwidthHz : ℕ :=
    hackrfComputeBasebandFilterBw (filterBandwidth undefined freqHz divider)
  have hbandwidth : hackrfComputeBasebandFilterBw
      (filterBandwidth 0 freqHz divider) = bandwidthHz := by
    simp only [bandwidthHz, filterBandwidth, if_neg hdivider]
  let params : Memory :=
    store .little 4 4 divider.toNat (store .little 4 0 freqHz.toNat stack)
  have hfreq : decode 4 0 (image 8 params) = freqHz.toNat := by
    rw [decode_image (by decide), load_store_of_disjoint (by decide), load_store]
    exact Nat.mod_eq_of_lt freqHz.toNat_lt
  have hrate : decode 4 4 (image 8 params) = divider.toNat := by
    rw [decode_image (by decide), load_store]
    exact Nat.mod_eq_of_lt divider.toNat_lt
  have heq : bus.hackrfSetSampleRateManual .little stack undefined freqHz
      divider = _ :=
    bus.lift_sendRequest_then (· < ((8 : ℕ) : ℤ))
      ⟨.sampleRateSet, 0, 0, image 8 params⟩
      ⟨.basebandFilterBandwidthSet, bandwidthHz % 2 ^ 16,
        bandwidthHz / 2 ^ 16, []⟩
  rw [heq, hbandwidth]
  apply arrives_then
  · apply arrives_structure rfl (by decide) (by decide)
    exact congrArg some (congrArg₂ Command.setSampleRate hfreq hrate)
  · intro s'
    have hmost : bandwidthHz ≤ 28000000 :=
      hackrfComputeBasebandFilterBw_le _
    exact hackrfSetBasebandFilterBandwidth_arrives (hmost.trans_lt (by decide))

theorem initSweep_fits {usb : Usb} {args : Sweep.InitSweepArgs}
    (haccepted : args.Accepted usb) (stack : Memory) :
    (args.request stack).transfer =
        ⟨.initSweep, (args.request stack).value, (args.request stack).index,
          .out (args.request stack).data⟩ ∧
      (args.request stack).transfer.Fits := by
  have hencoded := haccepted.encodedIn stack
  have hmax := haccepted.le_max
  unfold Sweep.maxSweepRanges at hmax
  have hlength := hencoded.length
  have hdata : (args.request stack).data ≠ [] := by
    intro hempty
    rw [hempty, List.length_nil] at hlength
    omega
  have htransfer : (args.request stack).transfer =
      ⟨.initSweep, (args.request stack).value, (args.request stack).index,
        .out (args.request stack).data⟩ := by
    rw [ControlOut.transfer, if_neg hdata]
    rfl
  have hmask : ∀ n : ℕ, n &&& 65535 < 65536 := fun n =>
    lt_of_le_of_lt Nat.and_le_right (by decide)
  refine ⟨htransfer, ?_⟩
  rw [htransfer]
  refine ⟨rfl, ?_, ?_, ?_⟩
  · simpa [Sweep.InitSweepArgs.request] using hmask _
  · simpa [Sweep.InitSweepArgs.request] using hmask _
  · simp only [DataStage.length, hlength]
    omega

theorem hackrfInitSweep_arrives (stack : Memory) (args : Sweep.InitSweepArgs) :
    ∃ events, Arrives (args.Accepted bus.usb) [.startSweep args.parameters] s
      (bus.hackrfInitSweep stack args s) events := by
  let read : BusState := s.log (.descriptor bus.deviceDescriptor)
  by_cases haccepted : args.Accepted bus.usb
  · obtain ⟨htransfer, hfits⟩ := initSweep_fits haccepted stack
    have hdecoded := (haccepted.encodedIn stack).decoded
    have heq : bus.hackrfInitSweep stack args s =
        bus.lift (fun usb => sendRequest usb (· < args.size)
          (args.request stack)) read := by
      simp only [hackrfInitSweep, lift, haccepted.hackrfInitSweep_eq, read]
    have hcommand : (args.request stack).transfer.request.command
        (args.request stack).transfer.value
        (args.request stack).transfer.index
        (args.request stack).transfer.stage.length
        (args.request stack).transfer.stage.sent =
        some (.startSweep args.parameters) := by
      rw [htransfer, ← hdecoded]
      rfl
    obtain ⟨events, hevents⟩ := @arrives_lift read bus _ _ _ hfits hcommand
    rw [iff_true_intro haccepted, heq]
    exact ⟨_, @Arrives.descriptor _ s _ read _ _ _ rfl hevents⟩
  · obtain ⟨hcode, hsent⟩ := Sweep.InitSweepArgs.hackrfInitSweep_of_not_accepted
      haccepted stack ⟨read.lastLibusbError, []⟩
    rw [iff_false_intro haccepted]
    refine ⟨_, @Arrives.descriptor _ s _ read _ [] _ rfl ?_⟩
    constructor
    · change read.trace ++ (Sweep.hackrfInitSweep bus.usb stack args
        ⟨read.lastLibusbError, []⟩).2.sent.map _ = _
      rw [hsent]
      rfl
    · exact List.nil_prefix
    · simp
    · intro hsuccess
      rcases hcode with hcode | hcode <;> exact absurd (hcode.symm.trans hsuccess) (by decide)
    · exact fun _ => hcode.symm

theorem hackrfSi5351cRead_arrives {host : ByteOrder} (registerNumber : UInt16)
    (value : ℕ) :
    ∃ events, Arrives (registerNumber < 256)
      [.readRegister .si5351c registerNumber.toNat] s
      (bus.hackrfSi5351cRead host registerNumber value s) events := by
  have haccepted : registerNumber < 256 ↔ ¬registerNumber ≥ 256 ∧ True := by
    rw [and_true, ge_iff_le, UInt16.not_le]
  apply Arrives.of_iff haccepted
  apply arrives_if
  intro _
  let transfer : ControlTransfer :=
    ⟨.si5351cRead, 0, registerNumber.toNat, .into 1⟩
  refine ⟨_, @arrives_control _ _ transfer (bus.fetch transfer).result _ ?_
    ⟨rfl, Nat.zero_lt_succ _, registerNumber.toNat_lt,
      Nat.one_lt_succ_succ _⟩ rfl⟩
  dsimp only
  split <;> simp [transfer]

/-- The flash address of an accepted call fits its two words. -/
theorem address_accepted (address : UInt32) :
    address.toNat < 2 ^ 20 ↔ ¬address > 0x0FFFFF := by
  rw [gt_iff_lt, UInt32.not_lt]
  exact Nat.lt_succ_iff

theorem hackrfSpiflashWrite_arrives (address : UInt32) (length : UInt16)
    (data : ℕ) :
    ∃ events, Arrives (address.toNat < 2 ^ 20)
      [.writeFlash address.toNat
        (image length.toNat fun k => s.mem (data + k))] s
      (bus.hackrfSpiflashWrite address length data s) events := by
  obtain ⟨hhigh, hlow⟩ := address_halves address
  have haddress := address.toNat_lt
  apply Arrives.of_iff ((address_accepted address).trans (and_true _).to_iff.symm)
  apply arrives_if
  intro _
  apply arrives_sendOut
  · refine ⟨rfl, ?_, ?_, ?_⟩
    · dsimp only
      omega
    · dsimp only
      omega
    · simpa [DataStage.length] using length.toNat_lt
  · simp only [HackrfVendorRequest.command, hhigh, hlow, DataStage.sent]
    rw [Nat.div_add_mod]

theorem hackrfSpiflashRead_arrives (address : UInt32) (length : UInt16)
    (data : ℕ) :
    ∃ events, Arrives (address.toNat < 2 ^ 20)
      [.readFlash address.toNat length.toNat] s
      (bus.hackrfSpiflashRead address length data s) events := by
  obtain ⟨hhigh, hlow⟩ := address_halves address
  have haddress := address.toNat_lt
  apply Arrives.of_iff ((address_accepted address).trans (and_true _).to_iff.symm)
  apply arrives_if
  intro _
  apply arrives_fetchInto rfl
  · omega
  · omega
  · exact length.toNat_lt
  · simp only [HackrfVendorRequest.command, hhigh, hlow]
    rw [Nat.div_add_mod]

theorem hackrfVersionStringRead_arrives (version : ℕ) (length : UInt8) :
    ∃ events, Arrives True [.versionString length.toNat] s
      (bus.hackrfVersionStringRead version length s) events := by
  exact arrives_update (fun _ => rfl)
    (arrives_fetchInto rfl (Nat.zero_lt_succ _) (Nat.zero_lt_succ _)
      (uint8_lt_word length) rfl)

theorem hackrfSetOperacakePorts_arrives (address portA portB : UInt8) :
    ∃ events, Arrives
      (0x0102 ≤ knownVersion bus.deviceDescriptor ∧
        portA.toNat < 8 ∧ portB.toNat < 8 ∧
        (portA.toNat < 4 ↔ 4 ≤ portB.toNat))
      [.setOperacakePorts address.toNat portA.toNat portB.toNat] s
      (bus.hackrfSetOperacakePorts address portA portB s) events := by
  have hports : portA.toNat < 8 ∧ portB.toNat < 8 ∧
      (portA.toNat < 4 ↔ 4 ≤ portB.toNat) ↔
      ¬(portA > operacakePb4 ∨ portB > operacakePb4) ∧
        ¬((portA ≤ operacakePa4 ∧ portB ≤ operacakePa4) ∨
          (portA > operacakePa4 ∧ portB > operacakePa4)) ∧ True := by
    simp only [gt_iff_lt, UInt8.lt_iff_toNat_lt, UInt8.le_iff_toNat_le,
      and_true, show operacakePb4.toNat = 7 from rfl,
      show operacakePa4.toNat = 3 from rfl]
    omega
  apply Arrives.of_iff (and_congr_right fun _ => hports)
  apply arrives_usbApiRequired (by decide)
  intro s' _
  apply arrives_if
  intro hrange
  apply arrives_if
  intro _
  have hrange : portA.toNat < 8 ∧ portB.toNat < 8 := by
    simp only [gt_iff_lt, UInt8.lt_iff_toNat_lt,
      show operacakePb4.toNat = 7 from rfl] at hrange
    omega
  apply arrives_command rfl (uint8_lt_word address)
  · rw [ports_eq]
    omega
  · have hlow : (portA.toNat + 256 * portB.toNat) % 256 = portA.toNat := by
      omega
    have hhigh : (portA.toNat + 256 * portB.toNat) / 256 = portB.toNat := by
      omega
    simp only [ports_eq, HackrfVendorRequest.command, hlow, hhigh]

theorem hackrfSetOperacakeRanges_arrives (ranges : ℕ) (lenRanges : UInt8) :
    ∃ events, Arrives (0x0103 ≤ knownVersion bus.deviceDescriptor)
      [.setOperacakeRanges
        (image lenRanges.toNat fun k => s.mem (ranges + k))] s
      (bus.hackrfSetOperacakeRanges ranges lenRanges s) events := by
  apply Arrives.of_iff (and_iff_left trivial).symm
  apply arrives_usbApiRequired (by decide)
  intro s' hmem
  rw [← hmem]
  apply arrives_sendOut
  · refine ⟨rfl, Nat.zero_lt_succ _, Nat.zero_lt_succ _, ?_⟩
    simpa [DataStage.length] using uint8_lt_word lenRanges
  · rfl

end Bus

theorem ApiRequest.run_arrives (bus : Bus) (stack : Memory)
    (undefined : UInt32) (s : BusState) {call : ApiRequest}
    (hrange : call.InRange) :
    ∃ events, Arrives (call.Accepted bus) (call.commands s.mem) s
      (call.run ⟨.little, stack, undefined⟩ bus s) events := by
  cases call with
  | setTransceiverMode value =>
      apply arrives_command rfl _ (Nat.zero_lt_succ _) rfl
      cases value <;> decide
  | setAmpEnable value =>
      exact arrives_command rfl (uint8_lt_word value) (Nat.zero_lt_succ _) rfl
  | setAntennaEnable value =>
      exact arrives_command rfl (uint8_lt_word value) (Nat.zero_lt_succ _) rfl
  | setLnaGain value =>
      exact @Bus.setGain_arrives bus s _ _ (· &&& ~~~0x07) value _ _ rfl (by decide)
        toNat_lnaGain (Nat.div_mul_le_self _ _) rfl
  | setVgaGain value =>
      exact @Bus.setGain_arrives bus s _ _ (· &&& ~~~0x01) value _ _ rfl (by decide)
        toNat_vgaGain (Nat.div_mul_le_self _ _) rfl
  | setTxvgaGain value =>
      exact Bus.setGain_arrives rfl (by decide) (fun _ => rfl) le_rfl rfl
  | setBasebandFilterBandwidth bandwidthHz =>
      exact Bus.hackrfSetBasebandFilterBandwidth_arrives bandwidthHz.toNat_lt
  | setFreq freqHz =>
      exact Bus.hackrfSetFreq_arrives stack hrange
  | setFreqExplicit ifFreqHz loFreqHz path =>
      exact Bus.hackrfSetFreqExplicit_arrives stack ifFreqHz loFreqHz path
  | setSampleRateManual freqHz divider =>
      exact Bus.hackrfSetSampleRateManual_arrives stack undefined freqHz hrange
  | initSweep args =>
      exact Bus.hackrfInitSweep_arrives stack args
  | setHwSyncMode value | setClkoutEnable value =>
      apply Arrives.of_iff (and_iff_left trivial).symm
      apply arrives_usbApiRequired (by decide)
      intro s' _
      exact arrives_command rfl (uint8_lt_word value) (Nat.zero_lt_succ _) rfl
  | reset | spiflashClearStatus =>
      apply Arrives.of_iff (and_iff_left trivial).symm
      apply arrives_usbApiRequired (by decide)
      intro s' _
      exact arrives_command rfl (Nat.zero_lt_succ _) (Nat.zero_lt_succ _) rfl
  | max2837Write registerNumber value =>
      have haccepted : registerNumber < 32 ∧ value < 0x400 ↔
          ¬registerNumber.toNat ≥ 32 ∧ ¬value.toNat ≥ 0x400 ∧ True := by
        rw [and_true, not_le, not_le]
        rfl
      apply Arrives.of_iff haccepted
      exact arrives_registerWrite rfl value.toNat_lt
        (uint8_lt_word registerNumber) rfl
  | si5351cWrite registerNumber value =>
      have haccepted : registerNumber < 256 ∧ value < 256 ↔
          ¬registerNumber.toNat ≥ 256 ∧ ¬value.toNat ≥ 256 ∧ True := by
        rw [and_true, not_le, not_le]
        rfl
      apply Arrives.of_iff haccepted
      exact arrives_registerWrite rfl value.toNat_lt registerNumber.toNat_lt rfl
  | rffc5071Write registerNumber value =>
      have haccepted : registerNumber < 31 ↔ ¬registerNumber ≥ 31 ∧ True := by
        rw [and_true, ge_iff_le, UInt8.not_le]
      apply Arrives.of_iff haccepted
      apply arrives_if
      intro _
      exact arrives_command rfl value.toNat_lt (uint8_lt_word registerNumber) rfl
  | max2837Read registerNumber value =>
      have haccepted : registerNumber < 32 ↔ ¬registerNumber ≥ 32 ∧ True := by
        rw [and_true, ge_iff_le, UInt8.not_le]
      apply Arrives.of_iff haccepted
      exact arrives_registerRead rfl rfl
  | rffc5071Read registerNumber value =>
      have haccepted : registerNumber < 31 ↔ ¬registerNumber ≥ 31 ∧ True := by
        rw [and_true, ge_iff_le, UInt8.not_le]
      apply Arrives.of_iff haccepted
      exact arrives_registerRead rfl rfl
  | si5351cRead registerNumber value =>
      exact Bus.hackrfSi5351cRead_arrives registerNumber value
  | spiflashErase =>
      exact arrives_command rfl (Nat.zero_lt_succ _) (Nat.zero_lt_succ _) rfl
  | spiflashWrite address length data =>
      exact Bus.hackrfSpiflashWrite_arrives address length data
  | spiflashRead address length data =>
      exact Bus.hackrfSpiflashRead_arrives address length data
  | spiflashStatus data =>
      apply Arrives.of_iff (and_iff_left trivial).symm
      apply arrives_usbApiRequired (by decide)
      intro s' _
      exact arrives_fetchInto rfl (Nat.zero_lt_succ _) (Nat.zero_lt_succ _)
        (by decide) rfl
  | boardIdRead value =>
      exact arrives_fetchInto rfl (Nat.zero_lt_succ _) (Nat.zero_lt_succ _)
        (by decide) rfl
  | versionStringRead version length =>
      exact Bus.hackrfVersionStringRead_arrives version length
  | boardPartidSerialnoRead readPartidSerialno =>
      exact arrives_update (fun _ => rfl)
        (arrives_fetchInto rfl (Nat.zero_lt_succ _) (Nat.zero_lt_succ _)
          (by decide) rfl)
  | cpldChecksum crc =>
      apply Arrives.of_iff (and_iff_left trivial).symm
      apply arrives_usbApiRequired (by decide)
      intro s' _
      exact arrives_update (fun _ => rfl)
        (arrives_fetchInto rfl (Nat.zero_lt_succ _) (Nat.zero_lt_succ _)
          (by decide) rfl)
  | getOperacakeBoards boards =>
      apply Arrives.of_iff (and_iff_left trivial).symm
      apply arrives_usbApiRequired (by decide)
      intro s' _
      exact arrives_fetchInto rfl (Nat.zero_lt_succ _) (Nat.zero_lt_succ _)
        (by decide) rfl
  | setOperacakePorts address portA portB =>
      exact Bus.hackrfSetOperacakePorts_arrives address portA portB
  | setOperacakeRanges ranges lenRanges =>
      exact Bus.hackrfSetOperacakeRanges_arrives ranges lenRanges
  | operacakeGpioTest address testResult =>
      apply Arrives.of_iff (and_iff_left trivial).symm
      apply arrives_usbApiRequired (by decide)
      intro s' _
      exact arrives_fetchInto rfl (uint8_lt_word address) (Nat.zero_lt_succ _)
        (by decide) rfl

theorem RequestCall.arrives {call : RequestCall} {s : BusState}
    {events : List BusEvent} (hlittle : call.host.order = .little)
    (hrange : call.request.InRange)
    (htrace : (call.run s).2.trace = s.trace ++ events) :
    Arrives (call.request.Accepted call.bus) (call.request.commands s.mem) s
      (call.run s) events := by
  obtain ⟨⟨order, stack, undefined⟩, bus, request⟩ := call
  obtain rfl : order = .little := hlittle
  obtain ⟨sent, hsent⟩ := request.run_arrives bus stack undefined s hrange
  have hsame : sent = events :=
    List.append_cancel_left (hsent.trace.symm.trans htrace)
  exact hsame ▸ hsent

/-- On little-endian hosts, a call with arguments in range makes requests if
and only if it is accepted, and otherwise is refused; and another one that puts
the same bytes on the bus, if both succeed, asks for the same. -/
theorem commands_of_requestBytes (call : RequestCall) (s : BusState)
    (events : List BusEvent)
    (hlittle : call.host.order = .little) (hrange : call.request.InRange)
    (htrace : (call.run s).2.trace = s.trace ++ events) :
    (call.request.Accepted call.bus ↔ requestBytes events ≠ []) ∧
    (¬call.request.Accepted call.bus →
      (call.run s).1 = .invalidParam ∨ (call.run s).1 = .usbApiVersion) ∧
    ∀ (other : RequestCall) (s' : BusState) (events' : List BusEvent),
      other.host.order = .little → other.request.InRange →
      (other.run s').2.trace = s'.trace ++ events' →
      (call.run s).1 = .success → (other.run s').1 = .success →
      requestBytes events' = requestBytes events →
        other.request.commands s'.mem = call.request.commands s.mem := by
  have harrives := call.arrives hlittle hrange htrace
  refine ⟨?_, harrives.refused, ?_⟩
  · rw [harrives.accepted_iff, arrives_eq_map_requestBytes, ne_eq,
      List.map_eq_nil_iff]
  · intro other s' events' hlittle' hrange' htrace' hsuccess hsuccess' hsame
    have harrives' := other.arrives hlittle' hrange' htrace'
    have hread := harrives.success hsuccess
    have hread' := harrives'.success hsuccess'
    rw [arrives_eq_map_requestBytes] at hread hread'
    rw [hsame, hread] at hread'
    exact List.map_injective_iff.mpr (Option.some_injective _) hread'.symm

/-- Two gains that are rounded to the same step send the same request. -/
theorem commands_of_requestBytes_lnaGain :
    let call (value : UInt32) : RequestCall :=
      ⟨.plain, .obliging, .setLnaGain value⟩
    let events : List BusEvent := [.control ⟨.setLnaGain, 0, 8, .into 1⟩ 1]
    requestBytes events ≠ [] ∧
      (call 9).request.commands (fun _ => 0) =
        (call 8).request.commands (fun _ => 0) := by
  intro call events
  obtain ⟨haccepted, -, hsame⟩ := commands_of_requestBytes (call 8)
    (.start fun _ => 0) events rfl trivial rfl
  refine ⟨haccepted.mp (by decide : (8 : UInt32) ≤ 40), ?_⟩
  exact hsame (call 9) (.start fun _ => 0) events rfl trivial rfl rfl rfl rfl

end HackRF
