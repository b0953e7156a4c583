import HackRF.VendorRequests

/-!
# What the calls ask of the device

Two things are followed through every run of calls, whatever libusb answers:
a request that older firmware does not know is made only right after the
version was read and found sufficient; and `last_libusb_error` is the result
of the last failed USB operation other than a transfer which sets a gain.  The
functions that set a gain report any failure as an invalid parameter and record
none.
-/

namespace HackRF

open ByteMemory

/-- The API version which introduced a request. -/
def HackrfVendorRequest.minVersion : HackrfVendorRequest → ℕ
  | .setHwSyncMode => 0x0102
  | .initSweep => 0x0102
  | .operacakeGetBoards => 0x0102
  | .operacakeSetPorts => 0x0102
  | .reset => 0x0102
  | .operacakeSetRanges => 0x0103
  | .clkoutEnable => 0x0103
  | .spiflashStatus => 0x0103
  | .spiflashClearStatus => 0x0103
  | .operacakeGpioTest => 0x0103
  | .cpldChecksum => 0x0103
  | _ => 0

/-- The number of bytes below which an incoming request counts as failed. -/
def HackrfVendorRequest.least (length : ℕ) : HackrfVendorRequest → ℤ
  | .spiflashStatus => 1
  | .operacakeGpioTest => 1
  | .versionStringRead => 0
  | _ => length

def HackrfVendorRequest.setsGain : HackrfVendorRequest → Bool
  | .setLnaGain => true
  | .setVgaGain => true
  | .setTxvgaGain => true
  | _ => false

def ControlTransfer.fails (transfer : ControlTransfer) (result : ℤ) : Bool :=
  match transfer.stage with
  | .none => result ≠ 0
  | .out data => result < data.length
  | .into length => result < transfer.request.least length

def BusEvent.failed : BusEvent → Bool
  | .descriptor (.ok _) => false
  | .descriptor (.error _) => true
  | .control transfer result => transfer.fails result

/-- The result of a failed operation other than one which sets a gain. -/
def BusEvent.failure : BusEvent → Option ℤ
  | .descriptor (.ok _) => none
  | .descriptor (.error result) => some result
  | .control transfer result =>
      if transfer.fails result && !transfer.request.setsGain then some result
      else none

def lastFailure (lastLibusbError : ℤ) (events : List BusEvent) : ℤ :=
  (events.filterMap BusEvent.failure).getLastD lastLibusbError

theorem lastFailure_append (lastLibusbError : ℤ)
    (before after : List BusEvent) :
    lastFailure lastLibusbError (before ++ after) =
      lastFailure (lastFailure lastLibusbError before) after := by
  simp only [lastFailure, List.filterMap_append]
  cases hafter : after.filterMap BusEvent.failure using List.reverseRecOn with
  | nil => simp
  | append_singleton rest result => simp [← List.append_assoc]

/-- The version which an answer to a descriptor read makes known. -/
def knownVersion : Except ℤ ℕ → ℕ
  | .ok usbVersion => usbVersion
  | .error _ => 0

/-- Every request is known to the firmware: `known` is the version read just
before the events. -/
def GatedFrom : ℕ → List BusEvent → Prop
  | _, [] => True
  | _, .descriptor answer :: rest => GatedFrom (knownVersion answer) rest
  | known, .control transfer _ :: rest =>
      transfer.request.minVersion ≤ known ∧ GatedFrom 0 rest

theorem GatedFrom.of_zero {known : ℕ} {events : List BusEvent}
    (hgated : GatedFrom 0 events) : GatedFrom known events := by
  cases events with
  | nil => trivial
  | cons event rest =>
      cases event with
      | descriptor answer => exact hgated
      | control transfer result =>
          exact ⟨hgated.1.trans (Nat.zero_le _), hgated.2⟩

theorem GatedFrom.append {known : ℕ} {before after : List BusEvent}
    (hbefore : GatedFrom known before) (hafter : GatedFrom 0 after) :
    GatedFrom known (before ++ after) := by
  induction before generalizing known with
  | nil => exact hafter.of_zero
  | cons event rest ih =>
      cases event with
      | descriptor answer => exact ih hbefore
      | control transfer result => exact ⟨hbefore.1, ih hbefore.2⟩

/-- The last of the events is a failed control transfer that sets no gain. -/
def EndsFailed (events : List BusEvent) : Prop :=
  ∃ transfer result, events.getLast? = some (.control transfer result) ∧
    transfer.fails result = true ∧ transfer.request.setsGain = false

theorem endsFailed_append {before after : List BusEvent}
    (hbefore : ¬EndsFailed before) :
    EndsFailed (before ++ after) ↔ EndsFailed after := by
  cases after with
  | nil =>
      rw [List.append_nil]
      exact iff_of_false hbefore (by simp [EndsFailed])
  | cons event rest =>
      simp only [EndsFailed]
      rw [List.getLast?_append_of_ne_nil _ (List.cons_ne_nil _ _)]

/-- What a call reports of the events it takes part in. -/
structure CallReport (known : ℕ) (s : BusState) (out : HackrfError × BusState)
    (events : List BusEvent) : Prop where
  trace : out.2.trace = s.trace ++ events
  gated : GatedFrom known events
  lastError : out.2.lastLibusbError =
    lastFailure s.lastLibusbError events
  success : out.1 = .success → ∀ event ∈ events, event.failed = false
  libusb : out.1 = .libusb ↔ EndsFailed events

def BusCall.Reporting (known : ℕ) (call : BusCall) : Prop :=
  ∀ s, ∃ events, CallReport known s (call s) events

theorem callReport_refused {known : ℕ} {s : BusState} {code : HackrfError}
    (hcode : code ≠ .libusb) : CallReport known s (code, s) [] where
  trace := by simp
  gated := trivial
  lastError := rfl
  success := fun _ _ hevent => absurd hevent List.not_mem_nil
  libusb := by simp [EndsFailed, hcode]

/-- One transfer, which the call reports as failed exactly if it fails. -/
theorem callReport_control {known : ℕ} {s : BusState}
    {out : HackrfError × BusState} {transfer : ControlTransfer} {result : ℤ}
    (hgate : transfer.request.minVersion ≤ known)
    (hgain : transfer.request.setsGain = false)
    (htrace : out.2.trace = s.trace ++ [.control transfer result])
    (hcode : out.1 =
      if transfer.fails result then .libusb else .success)
    (hlast : out.2.lastLibusbError =
      if transfer.fails result then result else s.lastLibusbError) :
    CallReport known s out [.control transfer result] where
  trace := htrace
  gated := ⟨hgate, trivial⟩
  lastError := by
    simp only [hlast, lastFailure, List.filterMap_cons, BusEvent.failure,
      hgain]
    cases transfer.fails result <;> simp
  success := by
    rw [hcode]
    cases hfails : transfer.fails result <;> simp [BusEvent.failed, hfails]
  libusb := by
    rw [hcode]
    cases hfails : transfer.fails result <;>
      simp [EndsFailed, hfails, hgain]

/-- One transfer which sets a gain. -/
theorem callReport_gain {known : ℕ} {s : BusState}
    {out : HackrfError × BusState} {transfer : ControlTransfer} {result : ℤ}
    (hgate : transfer.request.minVersion ≤ known)
    (hgain : transfer.request.setsGain = true)
    (htrace : out.2.trace = s.trace ++ [.control transfer result])
    (hcode : out.1 ≠ .libusb)
    (hsuccess : out.1 = .success → transfer.fails result = false)
    (hlast : out.2.lastLibusbError = s.lastLibusbError) :
    CallReport known s out [.control transfer result] where
  trace := htrace
  gated := ⟨hgate, trivial⟩
  lastError := by simp [hlast, lastFailure, BusEvent.failure, hgain]
  success := by simpa [BusEvent.failed] using hsuccess
  libusb := by simp [hcode, EndsFailed, hgain]

theorem endsFailed_descriptor {answer : Except ℤ ℕ} {events : List BusEvent} :
    EndsFailed (.descriptor answer :: events) ↔ EndsFailed events := by
  cases events <;> simp [EndsFailed]

/-- A read of the descriptor, and what the call does then. -/
theorem callReport_descriptor {known : ℕ} {s after : BusState}
    {out : HackrfError × BusState} {answer : Except ℤ ℕ}
    {events : List BusEvent}
    (htrace : after.trace = s.trace ++ [.descriptor answer])
    (hlast : after.lastLibusbError =
      lastFailure s.lastLibusbError [.descriptor answer])
    (hanswer : out.1 = .success →
      BusEvent.failed (.descriptor answer) = false)
    (hreport : CallReport (knownVersion answer) after out events) :
    CallReport known s out (.descriptor answer :: events) where
  trace := by
    rw [hreport.trace, htrace, List.append_assoc, List.singleton_append]
  gated := hreport.gated
  lastError := by
    rw [hreport.lastError, hlast, ← lastFailure_append, List.singleton_append]
  success := by
    intro hsuccess
    exact List.forall_mem_cons.mpr
      ⟨hanswer hsuccess, hreport.success hsuccess⟩
  libusb := by rw [hreport.libusb, endsFailed_descriptor]

namespace Bus

variable {bus : Bus}

theorem sendOut_reporting {known : ℕ} {tooShort : ℤ → Bool}
    {transfer : ControlTransfer}
    (hgate : transfer.request.minVersion ≤ known)
    (hgain : transfer.request.setsGain = false)
    (hshort : ∀ result, tooShort result = transfer.fails result) :
    BusCall.Reporting known (bus.sendOut tooShort transfer) := by
  intro s
  refine ⟨[.control transfer (bus.send transfer)],
    callReport_control hgate hgain ?_ ?_ ?_⟩
  all_goals
    simp only [sendOut, hshort]
    cases transfer.fails (bus.send transfer) <;> simp

theorem command_reporting {known : ℕ} {request : HackrfVendorRequest}
    (hgate : request.minVersion ≤ known) (hgain : request.setsGain = false)
    (value index : ℕ) :
    BusCall.Reporting known (bus.command request value index) :=
  sendOut_reporting hgate hgain fun _ => rfl

/-- A call that reads `length` bytes and, where that succeeds, changes only
memory. -/
theorem fetch_reporting {known : ℕ} {transfer : ControlTransfer}
    {call : BusCall} (hgate : transfer.request.minVersion ≤ known)
    (hgain : transfer.request.setsGain = false)
    (htrace : ∀ s, (call s).2.trace =
      s.trace ++ [.control transfer (bus.fetch transfer).result])
    (hfails : ∀ s, transfer.fails (bus.fetch transfer).result = true →
      (call s).1 = .libusb ∧
        (call s).2.lastLibusbError = (bus.fetch transfer).result)
    (hsucceeds : ∀ s, transfer.fails (bus.fetch transfer).result = false →
      (call s).1 = .success ∧
        (call s).2.lastLibusbError = s.lastLibusbError) :
    BusCall.Reporting known call := by
  intro s
  refine ⟨_, callReport_control hgate hgain (htrace s) ?_ ?_⟩
  · split_ifs with h
    · exact (hfails s h).1
    · exact (hsucceeds s (by simpa using h)).1
  · split_ifs with h
    · exact (hfails s h).2
    · exact (hsucceeds s (by simpa using h)).2

section Fetch

variable {request : HackrfVendorRequest} {value index length addr : ℕ}
  {least : ℤ} {s : BusState}

theorem fetchInto_trace :
    (bus.fetchInto request value index length least addr s).2.trace =
      s.trace ++ [.control ⟨request, value, index, .into length⟩
        (bus.fetch ⟨request, value, index, .into length⟩).result] := by
  simp only [fetchInto]
  split_ifs <;> simp

theorem fetchInto_of_lt
    (hlt : (bus.fetch ⟨request, value, index, .into length⟩).result < least) :
    (bus.fetchInto request value index length least addr s).1 = .libusb ∧
      (bus.fetchInto request value index length least addr
        s).2.lastLibusbError =
        (bus.fetch ⟨request, value, index, .into length⟩).result := by
  simp [fetchInto, hlt]

theorem fetchInto_of_le
    (hle : ¬(bus.fetch ⟨request, value, index, .into length⟩).result <
      least) :
    (bus.fetchInto request value index length least addr s).1 = .success ∧
      (bus.fetchInto request value index length least addr
        s).2.lastLibusbError = s.lastLibusbError := by
  simp [fetchInto, hle]

end Fetch

theorem fetchInto_reporting {known : ℕ} {request : HackrfVendorRequest}
    {least : ℤ} {length : ℕ} (hgate : request.minVersion ≤ known)
    (hgain : request.setsGain = false)
    (hleast : request.least length = least) (value index addr : ℕ) :
    BusCall.Reporting known
      (bus.fetchInto request value index length least addr) := by
  have hfails : ∀ result : ℤ, ControlTransfer.fails
      ⟨request, value, index, .into length⟩ result = true ↔
        result < least := by
    intro result
    simp [ControlTransfer.fails, hleast]
  apply fetch_reporting hgate hgain fun s => fetchInto_trace
  · intro s hshort
    exact fetchInto_of_lt ((hfails _).mp hshort)
  · intro s hlong
    rw [← Bool.not_eq_true, hfails] at hlong
    exact fetchInto_of_le hlong

theorem refused_reporting {known : ℕ} {code : HackrfError} {call : BusCall}
    {p : Prop} [Decidable p] (hcode : code ≠ .libusb)
    (hcall : ¬p → BusCall.Reporting known call) :
    BusCall.Reporting known fun s => if p then (code, s) else call s := by
  intro s
  dsimp only
  split_ifs with hp
  · exact ⟨[], callReport_refused hcode⟩
  · exact hcall hp s

theorem usbApiRequired_reporting {known version : ℕ} {call : BusCall}
    (hversion : 0 < version)
    (hcall : ∀ usbVersion, version ≤ usbVersion →
      BusCall.Reporting usbVersion call) :
    BusCall.Reporting known (bus.usbApiRequired version call) := by
  intro s
  cases hanswer : bus.deviceDescriptor with
  | error result =>
      refine ⟨[.descriptor (.error result)], @callReport_descriptor _ _
        ((s.log (.descriptor (.error result))).fail result) _ _ []
        rfl rfl ?_ ?_⟩
      · simp [usbApiRequired, hackrfUsbApiVersionRead, hanswer, hversion]
      · simp only [usbApiRequired, hackrfUsbApiVersionRead, hanswer, hversion,
          if_true]
        exact callReport_refused (by decide)
  | ok usbVersion =>
      by_cases hold : usbVersion < version
      · refine ⟨[.descriptor (.ok usbVersion)], @callReport_descriptor _ _
          (s.log (.descriptor (.ok usbVersion))) _ _ [] rfl rfl
          (fun _ => rfl) ?_⟩
        simp only [usbApiRequired, hackrfUsbApiVersionRead, hanswer, hold,
          if_true]
        exact callReport_refused (by decide)
      · obtain ⟨events, hevents⟩ := hcall usbVersion (not_lt.mp hold)
          (s.log (.descriptor (.ok usbVersion)))
        refine ⟨.descriptor (.ok usbVersion) :: events,
          @callReport_descriptor _ _ (s.log (.descriptor (.ok usbVersion)))
          _ _ events rfl rfl (fun _ => rfl) ?_⟩
        simpa [usbApiRequired, hackrfUsbApiVersionRead, hanswer, hold,
          knownVersion] using hevents

theorem setGain_reporting {known : ℕ} {request : HackrfVendorRequest}
    {largest : UInt32} {round : UInt32 → UInt32} {value : UInt32}
    (hgate : request.minVersion ≤ known) (hgain : request.setsGain = true)
    (hleast : request.least 1 = 1) :
    BusCall.Reporting known (bus.setGain request largest round value) := by
  intro s
  unfold setGain
  split_ifs
  · exact ⟨[], callReport_refused (by decide)⟩
  · refine ⟨[.control ⟨request, 0, (round value).toNat, .into 1⟩
        (bus.fetch ⟨request, 0, (round value).toNat, .into 1⟩).result],
      callReport_gain hgate hgain ?_ ?_ ?_ ?_⟩
    all_goals
      dsimp only
      split
      · rename_i retval hreply
        split_ifs <;>
          simp [ControlTransfer.fails, hleast, hreply, ControlReply.result]
      · simp

theorem hackrfSi5351cRead_reporting {known : ℕ} (host : ByteOrder)
    (registerNumber : UInt16) (value : ℕ) :
    BusCall.Reporting known
      (bus.hackrfSi5351cRead host registerNumber value) := by
  apply refused_reporting (by decide)
  intro _
  apply @fetch_reporting bus known
    ⟨.si5351cRead, 0, registerNumber.toNat, .into 1⟩ _ (Nat.zero_le _) rfl
  · intro s
    dsimp only
    split <;> simp
  · intro s hfails
    cases hreply :
        bus.fetch ⟨.si5351cRead, 0, registerNumber.toNat, .into 1⟩ with
    | failed code => simp [hreply]
    | received data =>
        cases data with
        | nil => simp [hreply]
        | cons tempValue rest =>
            simp [hreply, ControlReply.result, ControlTransfer.fails,
              HackrfVendorRequest.least] at hfails
            omega
  · intro s hfails
    cases hreply :
        bus.fetch ⟨.si5351cRead, 0, registerNumber.toNat, .into 1⟩ with
    | failed code =>
        simp [hreply, ControlReply.result, ControlTransfer.fails,
          HackrfVendorRequest.least] at hfails
    | received data =>
        cases data with
        | nil =>
            simp [hreply, ControlReply.result, ControlTransfer.fails,
              HackrfVendorRequest.least] at hfails
        | cons tempValue rest => simp [hreply]

/-! ## Calls of the modules before -/

theorem lift_sendRequest (tooShort : ℤ → Bool) (t : ControlOut) :
    (bus.lift fun usb => sendRequest usb tooShort t) =
      bus.sendOut tooShort t.transfer := by
  funext s
  cases hshort : tooShort (bus.send t.transfer) <;>
    simp [lift, sendRequest, sendOut, usb, hshort, BusState.log, BusState.fail]

theorem lift_refused (p : Prop) [Decidable p] (code : HackrfError)
    (call : Usb → ControlState → HackrfError × ControlState) :
    (bus.lift fun usb s => if p then (code, s) else call usb s) =
      fun s => if p then (code, s) else bus.lift call s := by
  funext s
  by_cases hp : p <;> simp [lift, hp]

theorem lift_reporting {known : ℕ} {tooShort : ℤ → Bool} {t : ControlOut}
    (hgate : t.request.hackrf.minVersion ≤ known)
    (hshort : ∀ result, tooShort result = t.transfer.fails result) :
    BusCall.Reporting known (bus.lift fun usb => sendRequest usb tooShort t) := by
  have hgain : t.transfer.request.setsGain = false := by
    cases hrequest : t.request <;> simp [ControlOut.transfer, hrequest,
      VendorRequest.hackrf, HackrfVendorRequest.setsGain]
  rw [lift_sendRequest]
  exact sendOut_reporting hgate hgain hshort

theorem image_fails {request : VendorRequest} {value index length : ℕ}
    (hlength : length ≠ 0) (mem : Memory) (result : ℤ) :
    decide (result < length) =
      ControlTransfer.fails
        (ControlOut.transfer ⟨request, value, index, image length mem⟩)
        result := by
  simp [ControlOut.transfer, ControlTransfer.fails, image, hlength]

theorem hackrfSetFreq_reporting {known : ℕ} (host : ByteOrder)
    (stack : Memory) (freqHz : UInt64) :
    BusCall.Reporting known (bus.hackrfSetFreq host stack freqHz) :=
  lift_reporting (Nat.zero_le _) fun result => image_fails (by decide) _ result

theorem hackrfSetFreqExplicit_reporting {known : ℕ} (host : ByteOrder)
    (stack : Memory) (ifFreqHz loFreqHz : UInt64) (path : UInt32) :
    BusCall.Reporting known
      (bus.hackrfSetFreqExplicit host stack ifFreqHz loFreqHz path) := by
  have hsends : ∀ data : Memory, BusCall.Reporting known
      (bus.lift fun usb => sendRequest usb (· < ((24 : ℕ) : ℤ))
        ⟨.setFreqExplicit, 0, 0, image 24 data⟩) := fun data =>
    lift_reporting (Nat.zero_le _) fun result =>
      image_fails (by decide) data result
  unfold hackrfSetFreqExplicit HackRF.hackrfSetFreqExplicit
  rw [lift_refused]
  apply refused_reporting (by decide)
  intro _
  rw [lift_refused]
  apply refused_reporting (by decide)
  intro _
  rw [lift_refused]
  apply refused_reporting (by decide)
  intro _
  exact hsends _

theorem hackrfSetBasebandFilterBandwidth_reporting {known : ℕ}
    (bandwidthHz : UInt32) :
    BusCall.Reporting known
      (bus.hackrfSetBasebandFilterBandwidth bandwidthHz) := by
  unfold hackrfSetBasebandFilterBandwidth
    HackRF.hackrfSetBasebandFilterBandwidth
  apply lift_reporting (Nat.zero_le _)
  intro result
  rfl

theorem sequence_reporting {known : ℕ} {first second : BusCall}
    (hfirst : BusCall.Reporting known first)
    (hsecond : BusCall.Reporting 0 second) :
    BusCall.Reporting known fun s =>
      match first s with
      | (.success, s) => second s
      | failed => failed := by
  intro s
  obtain ⟨before, hbefore⟩ := hfirst s
  cases hout : first s with
  | mk code middle =>
      rw [hout] at hbefore
      simp only [hout]
      by_cases hcode : code = .success
      · subst hcode
        obtain ⟨after, hafter⟩ := hsecond middle
        have htrace := hbefore.trace
        have hlast := hbefore.lastError
        dsimp only at htrace hlast ⊢
        refine ⟨before ++ after, ?_, ?_, ?_, ?_, ?_⟩
        · rw [hafter.trace, htrace, List.append_assoc]
        · exact hbefore.gated.append hafter.gated
        · rw [lastFailure_append, ← hlast]
          exact hafter.lastError
        · intro hsuccess
          exact List.forall_mem_append.mpr
            ⟨hbefore.success rfl, hafter.success hsuccess⟩
        · rw [hafter.libusb]
          exact (endsFailed_append (by simpa using hbefore.libusb)).symm
      · refine ⟨before, ?_⟩
        cases code <;> first | exact absurd rfl hcode | exact hbefore

/-- The two requests of `hackrf_set_sample_rate_manual`. -/
theorem lift_sendRequest_then (bus : Bus) (tooShort : ℤ → Bool) (first : ControlOut)
    (second : ControlOut) :
    (bus.lift fun usb s =>
      match sendRequest usb tooShort first s with
      | (.success, s) => sendRequest usb (· ≠ 0) second s
      | failed => failed) =
      fun s =>
        match bus.lift (fun usb => sendRequest usb tooShort first) s with
        | (.success, s) => bus.lift (fun usb => sendRequest usb (· ≠ 0) second) s
        | failed => failed := by
  funext s
  cases hshort : tooShort (bus.usb.send first) with
  | true => simp [lift, sendRequest, hshort]
  | false =>
      cases hrefused : decide (bus.usb.send second = 0) <;>
        simp_all [lift, sendRequest]

theorem hackrfSetSampleRateManual_reporting {known : ℕ} (host : ByteOrder)
    (stack : Memory) (undefined freqHz divider : UInt32) :
    BusCall.Reporting known
      (bus.hackrfSetSampleRateManual host stack undefined freqHz divider) := by
  let params : Memory :=
    store host 4 4 (toLe host divider.toNat)
      (store host 4 0 (toLe host freqHz.toNat) stack)
  let bandwidthHz : ℕ :=
    hackrfComputeBasebandFilterBw (filterBandwidth undefined freqHz divider)
  have heq : bus.hackrfSetSampleRateManual host stack undefined freqHz
      divider = _ :=
    bus.lift_sendRequest_then (· < ((8 : ℕ) : ℤ))
      ⟨.sampleRateSet, 0, 0, image 8 params⟩
      ⟨.basebandFilterBandwidthSet, bandwidthHz % 2 ^ 16,
        bandwidthHz / 2 ^ 16, []⟩
  rw [heq]
  apply sequence_reporting
  · apply lift_reporting (Nat.zero_le _)
    intro result
    exact image_fails (by decide) params result
  · apply lift_reporting (Nat.zero_le _)
    intro result
    rfl

theorem lift_usbApiRequiredOut (bus : Bus) (version : ℕ)
    (call : Usb → ControlState → HackrfError × ControlState) :
    (fun s => bus.lift (fun usb => Sweep.usbApiRequiredOut usb version (call usb))
      (s.log (.descriptor bus.deviceDescriptor))) =
      bus.usbApiRequired version (bus.lift call) := by
  funext s
  cases hanswer : bus.deviceDescriptor with
  | error result =>
      by_cases hversion : 0 < version <;>
        simp [lift, usb, Sweep.usbApiRequiredOut, usbApiRequired,
          hackrfUsbApiVersionRead, hanswer, hversion, BusState.fail]
  | ok usbVersion =>
      by_cases hold : usbVersion < version <;>
        simp [lift, usb, Sweep.usbApiRequiredOut, usbApiRequired,
          hackrfUsbApiVersionRead, hanswer, hold, BusState.log]

theorem hackrfInitSweep_reporting {known : ℕ} (stack : Memory)
    (args : Sweep.InitSweepArgs) :
    BusCall.Reporting known (bus.hackrfInitSweep stack args) := by
  have heq : bus.hackrfInitSweep stack args = _ :=
    bus.lift_usbApiRequiredOut 0x0102 _
  rw [heq]
  apply usbApiRequired_reporting (by decide)
  intro usbVersion hversion
  rw [lift_refused]
  apply refused_reporting (by decide)
  intro hranges
  have hone : 1 ≤ args.numRanges.toInt := by
    rw [not_or, Int32.lt_iff_toInt_lt] at hranges
    exact not_lt.mp hranges.1
  have hsize : args.size = args.size.toNat := by
    rw [Int.toNat_of_nonneg]
    unfold Sweep.InitSweepArgs.size
    omega
  iterate 4
    rw [lift_refused]
    apply refused_reporting (by decide)
    intro _
  apply lift_reporting hversion
  intro result
  rw [hsize]
  apply image_fails
  unfold Sweep.InitSweepArgs.size
  omega

/-! ## All calls -/

/-- A call whose success is followed by a change of memory. -/
theorem update_reporting {known : ℕ} {call : BusCall}
    {update : BusState → BusState}
    (htrace : ∀ s, (update s).trace = s.trace)
    (hlast : ∀ s, (update s).lastLibusbError = s.lastLibusbError)
    (hcall : BusCall.Reporting known call) :
    BusCall.Reporting known fun s =>
      match call s with
      | (.success, s) => (.success, update s)
      | failed => failed := by
  intro s
  obtain ⟨events, hevents⟩ := hcall s
  refine ⟨events, ?_⟩
  cases hout : call s with
  | mk code after =>
      rw [hout] at hevents
      simp only [hout]
      cases code with
      | success =>
          exact ⟨(htrace after).trans hevents.trace, hevents.gated,
            (hlast after).trans hevents.lastError, hevents.success,
            hevents.libusb⟩
      | _ => exact hevents

theorem registerRead_reporting {known : ℕ} {request : HackrfVendorRequest}
    (hgate : request.minVersion ≤ known) (hgain : request.setsGain = false)
    (hleast : request.least 2 = 2) (registers registerNumber : UInt8) (value : ℕ) :
    BusCall.Reporting known
      (bus.registerRead request registers registerNumber value) := by
  apply refused_reporting (by decide)
  intro _
  exact fetchInto_reporting hgate hgain hleast _ _ _

theorem registerWrite_reporting {known : ℕ} {request : HackrfVendorRequest}
    (hgate : request.minVersion ≤ known) (hgain : request.setsGain = false)
    (registers values registerNumber value : ℕ) :
    BusCall.Reporting known
      (bus.registerWrite request registers values registerNumber value) := by
  apply refused_reporting (by decide)
  intro _
  apply refused_reporting (by decide)
  intro _
  exact command_reporting hgate hgain _ _

theorem hackrfSpiflashWrite_reporting {known : ℕ} (address : UInt32)
    (length : UInt16) (data : ℕ) :
    BusCall.Reporting known
      (bus.hackrfSpiflashWrite address length data) := by
  apply refused_reporting (by decide)
  intro _ s
  apply sendOut_reporting (Nat.zero_le _) rfl
  intro result
  simp [ControlTransfer.fails, image]

theorem hackrfSetOperacakeRanges_reporting {known : ℕ} (ranges : ℕ)
    (lenRanges : UInt8) :
    BusCall.Reporting known
      (bus.hackrfSetOperacakeRanges ranges lenRanges) := by
  apply usbApiRequired_reporting (by decide)
  intro usbVersion hversion s
  apply sendOut_reporting hversion rfl
  intro result
  simp [ControlTransfer.fails, image]

end Bus

theorem ApiRequest.run_reporting (host : Host) (bus : Bus)
    (call : ApiRequest) : BusCall.Reporting 0 (call.run host bus) := by
  cases call with
  | setTransceiverMode value => exact Bus.command_reporting (Nat.zero_le _) rfl _ _
  | setBasebandFilterBandwidth bandwidthHz =>
      exact Bus.hackrfSetBasebandFilterBandwidth_reporting bandwidthHz
  | setAmpEnable value => exact Bus.command_reporting (Nat.zero_le _) rfl _ _
  | setAntennaEnable value => exact Bus.command_reporting (Nat.zero_le _) rfl _ _
  | setLnaGain value =>
      apply Bus.setGain_reporting (Nat.zero_le _)
      · rfl
      · rfl
  | setVgaGain value =>
      apply Bus.setGain_reporting (Nat.zero_le _)
      · rfl
      · rfl
  | setTxvgaGain value =>
      apply Bus.setGain_reporting (Nat.zero_le _)
      · rfl
      · rfl
  | setFreq freqHz => exact Bus.hackrfSetFreq_reporting _ _ freqHz
  | setFreqExplicit ifFreqHz loFreqHz path =>
      exact Bus.hackrfSetFreqExplicit_reporting _ _ ifFreqHz loFreqHz path
  | setSampleRateManual freqHz divider =>
      exact Bus.hackrfSetSampleRateManual_reporting _ _ _ freqHz divider
  | initSweep args => exact Bus.hackrfInitSweep_reporting _ args
  | setHwSyncMode value | reset | setClkoutEnable value | spiflashClearStatus =>
      apply Bus.usbApiRequired_reporting (by decide)
      intro usbVersion hversion
      exact Bus.command_reporting hversion rfl _ _
  | max2837Write registerNumber value =>
      exact Bus.registerWrite_reporting (Nat.zero_le _) rfl _ _ _ _
  | si5351cWrite registerNumber value =>
      exact Bus.registerWrite_reporting (Nat.zero_le _) rfl _ _ _ _
  | rffc5071Write registerNumber value =>
      apply Bus.refused_reporting (by decide)
      intro _
      exact Bus.command_reporting (Nat.zero_le _) rfl _ _
  | max2837Read registerNumber value =>
      exact Bus.registerRead_reporting (Nat.zero_le _) rfl rfl _ _ _
  | si5351cRead registerNumber value =>
      exact Bus.hackrfSi5351cRead_reporting _ registerNumber value
  | rffc5071Read registerNumber value =>
      exact Bus.registerRead_reporting (Nat.zero_le _) rfl rfl _ _ _
  | spiflashErase => exact Bus.command_reporting (Nat.zero_le _) rfl _ _
  | spiflashWrite address length data =>
      exact Bus.hackrfSpiflashWrite_reporting address length data
  | spiflashRead address length data =>
      apply Bus.refused_reporting (by decide)
      intro _
      exact Bus.fetchInto_reporting (Nat.zero_le _) rfl rfl _ _ _
  | spiflashStatus data =>
      apply Bus.usbApiRequired_reporting (by decide)
      intro usbVersion hversion
      exact Bus.fetchInto_reporting hversion rfl rfl _ _ _
  | boardIdRead value => exact Bus.fetchInto_reporting (Nat.zero_le _) rfl rfl _ _ _
  | versionStringRead version length =>
      exact Bus.update_reporting (fun _ => rfl) (fun _ => rfl)
        (Bus.fetchInto_reporting (Nat.zero_le _) rfl rfl _ _ _)
  | boardPartidSerialnoRead readPartidSerialno =>
      exact Bus.update_reporting (fun _ => rfl) (fun _ => rfl)
        (Bus.fetchInto_reporting (Nat.zero_le _) rfl rfl _ _ _)
  | cpldChecksum crc =>
      apply Bus.usbApiRequired_reporting (by decide)
      intro usbVersion hversion
      exact Bus.update_reporting (fun _ => rfl) (fun _ => rfl)
        (Bus.fetchInto_reporting hversion rfl rfl _ _ _)
  | getOperacakeBoards boards =>
      apply Bus.usbApiRequired_reporting (by decide)
      intro usbVersion hversion
      exact Bus.fetchInto_reporting hversion rfl rfl _ _ _
  | setOperacakePorts address portA portB =>
      apply Bus.usbApiRequired_reporting (by decide)
      intro usbVersion hversion
      apply Bus.refused_reporting (by decide)
      intro _
      apply Bus.refused_reporting (by decide)
      intro _
      exact Bus.command_reporting hversion rfl _ _
  | setOperacakeRanges ranges lenRanges =>
      exact Bus.hackrfSetOperacakeRanges_reporting ranges lenRanges
  | operacakeGpioTest address testResult =>
      apply Bus.usbApiRequired_reporting (by decide)
      intro usbVersion hversion
      exact Bus.fetchInto_reporting hversion rfl rfl _ _ _

/-! ## Runs of calls -/

structure RequestCall where
  host : Host
  bus : Bus
  request : ApiRequest

def RequestCall.run (call : RequestCall) : BusCall :=
  call.request.run call.host call.bus

def BusState.start (mem : Memory) : BusState where
  lastLibusbError := 0
  mem := mem
  trace := []

def BusState.after (s : BusState) (calls : List RequestCall) : BusState :=
  calls.foldl (fun s call => (call.run s).2) s

/-- What holds of the record and of `last_libusb_error` between the calls. -/
structure BusState.Recorded (s : BusState) : Prop where
  gated : GatedFrom 0 s.trace
  lastError : s.lastLibusbError = lastFailure 0 s.trace

theorem BusState.Recorded.run {s : BusState} (hrecorded : s.Recorded)
    (call : RequestCall) : (call.run s).2.Recorded := by
  obtain ⟨events, hevents⟩ := call.request.run_reporting call.host call.bus s
  constructor
  · rw [RequestCall.run, hevents.trace]
    exact hrecorded.gated.append hevents.gated
  · rw [RequestCall.run, hevents.trace, lastFailure_append,
      ← hrecorded.lastError]
    exact hevents.lastError

theorem BusState.recorded_after (mem : Memory) (calls : List RequestCall) :
    ((BusState.start mem).after calls).Recorded := by
  induction calls using List.reverseRecOn with
  | nil => exact ⟨trivial, rfl⟩
  | append_singleton calls call ih =>
      rw [BusState.after, List.foldl_append]
      exact ih.run call

theorem getLast?_cons_of_some {event last : BusEvent} {rest : List BusEvent}
    (hlast : rest.getLast? = some last) :
    (event :: rest).getLast? = some last := by
  simp [List.getLast?_cons, hlast]

theorem GatedFrom.request_known {known : ℕ} {transfer : ControlTransfer}
    {result : ℤ} {before after : List BusEvent}
    (hgated : GatedFrom known (before ++ .control transfer result :: after)) :
    transfer.request.minVersion = 0 ∨
      (before = [] ∧ transfer.request.minVersion ≤ known) ∨
      ∃ usbVersion, before.getLast? = some (.descriptor (.ok usbVersion)) ∧
        transfer.request.minVersion ≤ usbVersion := by
  induction before generalizing known with
  | nil => exact .inr (.inl ⟨rfl, hgated.1⟩)
  | cons event rest ih =>
      cases event with
      | descriptor answer =>
          rcases ih hgated with hzero | ⟨rfl, hknown⟩ | ⟨version, hlast, hle⟩
          · exact .inl hzero
          · cases answer with
            | ok usbVersion => exact .inr (.inr ⟨usbVersion, rfl, hknown⟩)
            | error result => exact .inl (Nat.le_zero.mp hknown)
          · exact .inr (.inr ⟨version, getLast?_cons_of_some hlast, hle⟩)
      | control first answer =>
          rcases ih hgated.2 with hzero | ⟨_, hknown⟩ | ⟨version, hlast, hle⟩
          · exact .inl hzero
          · exact .inl (Nat.le_zero.mp hknown)
          · exact .inr (.inr ⟨version, getLast?_cons_of_some hlast, hle⟩)

/-- In every run of calls, with any answers of libusb, a request which older
firmware does not know is made only right after the version was read and found
to be at least the one that introduced the request. -/
theorem request_known_to_firmware (mem : Memory) (calls : List RequestCall)
    (before after : List BusEvent) (transfer : ControlTransfer) (result : ℤ)
    (htrace : ((BusState.start mem).after calls).trace =
      before ++ .control transfer result :: after) :
    transfer.request.minVersion = 0 ∨
      ∃ usbVersion, before.getLast? = some (.descriptor (.ok usbVersion)) ∧
        transfer.request.minVersion ≤ usbVersion := by
  have hgated := (BusState.recorded_after mem calls).gated
  rw [htrace] at hgated
  rcases hgated.request_known with hzero | ⟨_, hzero⟩ | hread
  · exact .inl hzero
  · exact .inl (Nat.le_zero.mp hzero)
  · exact .inr hread

/-- A device with the newest API which accepts every request. -/
def Bus.obliging : Bus where
  send := fun transfer =>
    match transfer.stage with
    | .out data => data.length
    | _ => 0
  fetch := fun transfer =>
    match transfer.stage with
    | .into length => .received (List.replicate length 1)
    | _ => .failed 0
  deviceDescriptor := .ok 0x0103

def Host.plain : Host where
  order := .little
  stack := fun _ => 0
  undefined := 0

theorem request_known_to_firmware_hwSync :
    let transfer : ControlTransfer := ⟨.setHwSyncMode, 1, 0, .none⟩
    transfer.request.minVersion = 0 ∨
      ∃ usbVersion, [BusEvent.control ⟨.ampEnable, 1, 0, .none⟩ 0,
          .descriptor (.ok 0x0103)].getLast? =
        some (.descriptor (.ok usbVersion)) ∧
      transfer.request.minVersion ≤ usbVersion := by
  intro transfer
  exact request_known_to_firmware (fun _ => 0)
    [⟨.plain, .obliging, .setAmpEnable 1⟩, ⟨.plain, .obliging, .setHwSyncMode 1⟩]
    _ [] transfer 0 rfl

end HackRF
