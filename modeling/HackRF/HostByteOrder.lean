import HackRF.ControlTransfers

/-!
# Parameters and values across host byte orders

`TO_LE` swaps 32 bits.  So the 32-bit parameters are sent little-endian by
every host, and the 32-bit values read come out right, whereas a big-endian
host sends the two 64-bit frequencies of `hackrf_set_freq_explicit` with the
swapped low half in the place of the high one, and keeps the 16-bit values,
which no `TO_LE` corrects, with their bytes exchanged.
-/

namespace HackRF

open ByteMemory

variable {host : ByteOrder} {mem stack : Memory} {usb : Usb}
  {undefined : UInt32} {addr value : ℕ}

/-! ## Words of 32 bits -/

/-- A word corrected with `TO_LE` is stored little-endian on every host. -/
theorem load_store_toLe :
    load .little 4 addr (store host 4 addr (toLe host value) mem) =
      value % 2 ^ 32 := by
  cases host with
  | little => exact load_store
  | big =>
      rw [toLe, builtinBswap32, store_swap, load_store]
      norm_num

/-- A 64-bit field of a big-endian host loses the high half of its value and
has the low one in its place. -/
theorem load_store_toLe_big :
    load .little 8 addr (store .big 8 addr (toLe .big value) mem) =
      2 ^ 32 * (value % 2 ^ 32) := by
  have hlt : swap 4 (value % 2 ^ 32) < 256 ^ 4 := swap_lt
  have hsame : swap 4 (value % 2 ^ 32) % 256 ^ 8 = swap 4 (value % 2 ^ 32) :=
    Nat.mod_eq_of_lt (by omega)
  calc load .little 8 addr (store .big 8 addr (toLe .big value) mem)
      = swap (4 + 4) (swap 4 (value % 2 ^ 32)) := by
        rw [← swap_load, load_store, toLe, builtinBswap32, hsame]
    _ = 256 ^ 4 * swap 4 (swap 4 (value % 2 ^ 32)) := swap_add hlt
    _ = 2 ^ 32 * (value % 2 ^ 32) := by
        rw [swap_swap]
        norm_num

theorem toLe_load : toLe host (load host 4 addr mem) = load .little 4 addr mem := by
  cases host with
  | little => rfl
  | big =>
      have hlt : load .big 4 addr mem < 2 ^ 32 := load_lt
      rw [toLe, builtinBswap32, Nat.mod_eq_of_lt hlt, swap_load]

theorem load_correctWord :
    load host 4 addr (correctWord host addr mem) = load .little 4 addr mem := by
  rw [correctWord, toLe_load, load_store, Nat.mod_eq_of_lt load_lt]

theorem load_correctWords_of_le {order : ByteOrder} {count k : ℕ}
    (hk : count ≤ k) :
    load order 4 (addr + 4 * k) (correctWords host addr count mem) =
      load order 4 (addr + 4 * k) mem := by
  induction count with
  | zero => rfl
  | succ count ih =>
      rw [correctWords, List.range_succ, List.foldl_append, List.foldl_cons,
        List.foldl_nil, correctWord, load_store_of_disjoint (by omega)]
      exact ih (by omega)

theorem load_correctWords {count k : ℕ} (hk : k < count) :
    load host 4 (addr + 4 * k) (correctWords host addr count mem) =
      load .little 4 (addr + 4 * k) mem := by
  induction count with
  | zero => omega
  | succ count ih =>
      rw [correctWords, List.range_succ, List.foldl_append, List.foldl_cons,
        List.foldl_nil]
      by_cases hlast : k = count
      · rw [hlast, load_correctWord]
        exact load_correctWords_of_le le_rfl
      · rw [correctWord, load_store_of_disjoint (by omega)]
        exact ih (by omega)

/-! ## Parameters sent -/

inductive ParameterCall where
  | setFreq (freqHz : UInt64)
  | setFreqExplicit (ifFreqHz loFreqHz : UInt64) (path : UInt32)
  | setSampleRateManual (freqHz divider : UInt32)
  deriving DecidableEq, Repr

namespace ParameterCall

def run (host : ByteOrder) (usb : Usb) (stack : Memory) (undefined : UInt32) :
    ParameterCall → ControlState → HackrfError × ControlState
  | setFreq freqHz => hackrfSetFreq host usb stack freqHz
  | setFreqExplicit ifFreqHz loFreqHz path =>
      hackrfSetFreqExplicit host usb stack ifFreqHz loFreqHz path
  | setSampleRateManual freqHz divider =>
      hackrfSetSampleRateManual host usb stack undefined freqHz divider

/-- The arguments `hackrf_set_freq_explicit` does not reject; the other two
functions reject none, but the MHz of `hackrf_set_freq` fit 32 bits. -/
def Accepted : ParameterCall → Prop
  | setFreq freqHz => freqHz.toNat / freqOneMhz < 2 ^ 32
  | setFreqExplicit ifFreqHz loFreqHz path =>
      (2150000000 ≤ ifFreqHz ∧ ifFreqHz ≤ 2750000000) ∧
        (path = rfPathFilterBypass ∨
          84375000 ≤ loFreqHz ∧ loFreqHz ≤ 5400000000) ∧
        path ≤ 2
  | setSampleRateManual _ _ => True

def SetsExplicit : ParameterCall → Prop
  | setFreqExplicit _ _ _ => True
  | _ => False

def width : ParameterCall → ℕ
  | setFreqExplicit _ _ _ => 8
  | _ => 4

def values : ParameterCall → ℕ × ℕ
  | setFreq freqHz =>
      (freqHz.toNat / freqOneMhz, freqHz.toNat % freqOneMhz)
  | setFreqExplicit ifFreqHz loFreqHz _ => (ifFreqHz.toNat, loFreqHz.toNat)
  | setSampleRateManual freqHz divider => (freqHz.toNat, divider.toNat)

/-- The structure bytes of the first request the call sends. -/
def transmitted (host : ByteOrder) (usb : Usb) (stack : Memory)
    (undefined : UInt32) (s : ControlState) (call : ParameterCall) :
    Option (List UInt8) :=
  (call.run host usb stack undefined s).2.sent[s.sent.length]?.map (·.data)

/-- The fields as the device reads them. -/
def decodeFields (call : ParameterCall) (data : List UInt8) : ℕ × ℕ :=
  (decode call.width 0 data, decode call.width call.width data)

end ParameterCall

theorem sendRequest_data {tooShort : ℤ → Bool} {transfer : ControlOut}
    {s : ControlState} :
    (sendRequest usb tooShort transfer s).2.sent[s.sent.length]?.map (·.data) =
      some transfer.data := by
  rw [sendRequest_sent, List.getElem?_concat_length]
  rfl

theorem hackrfSetFreq_data {freqHz : UInt64} {s : ControlState}
    (hmhz : freqHz.toNat / freqOneMhz < 2 ^ 32) :
    (hackrfSetFreq host usb stack freqHz s).2.sent[s.sent.length]?.map
      (·.data) =
      some (image 8
        (store host 4 4 (toLe host (freqHz.toNat % freqOneMhz))
          (store host 4 0 (toLe host (freqHz.toNat / freqOneMhz)) stack))) := by
  have hhz : freqHz.toNat - freqHz.toNat / freqOneMhz * freqOneMhz =
      freqHz.toNat % freqOneMhz := by
    rw [Nat.mod_eq_sub_div_mul]
  have hlt : freqHz.toNat % freqOneMhz < 2 ^ 32 :=
    lt_trans (Nat.mod_lt _ (by decide)) (by decide)
  simp only [hackrfSetFreq]
  rw [sendRequest_data, Nat.mod_eq_of_lt hmhz, hhz, Nat.mod_eq_of_lt hlt]

theorem hackrfSetFreqExplicit_data {ifFreqHz loFreqHz : UInt64}
    {path : UInt32} {s : ControlState}
    (haccepted :
      (ParameterCall.setFreqExplicit ifFreqHz loFreqHz path).Accepted) :
    (hackrfSetFreqExplicit host usb stack ifFreqHz loFreqHz path
      s).2.sent[s.sent.length]?.map (·.data) =
      some (image 24
        (store host 1 16 path.toNat
          (store host 8 8 (toLe host loFreqHz.toNat)
            (store host 8 0 (toLe host ifFreqHz.toNat) stack)))) := by
  obtain ⟨⟨hlow, hhigh⟩, hlo, hpath⟩ := haccepted
  have hif : ¬ (ifFreqHz < 2150000000 ∨ ifFreqHz > 2750000000) := by
    rintro (h | h)
    · exact absurd hlow (UInt64.not_le.mpr h)
    · exact absurd hhigh (UInt64.not_le.mpr h)
  have hlo : ¬ (path ≠ rfPathFilterBypass ∧
      (loFreqHz < 84375000 ∨ loFreqHz > 5400000000)) := by
    rintro ⟨hbypass, h | h⟩
    · exact absurd (hlo.resolve_left hbypass).1 (UInt64.not_le.mpr h)
    · exact absurd (hlo.resolve_left hbypass).2 (UInt64.not_le.mpr h)
  rw [hackrfSetFreqExplicit, if_neg hif, if_neg hlo,
    if_neg (UInt32.not_lt.mpr hpath)]
  exact sendRequest_data

theorem hackrfSetSampleRateManual_data {freqHz divider : UInt32}
    {s : ControlState} :
    (hackrfSetSampleRateManual host usb stack undefined freqHz divider
      s).2.sent[s.sent.length]?.map (·.data) =
      some (image 8 (store host 4 4 (toLe host divider.toNat)
        (store host 4 0 (toLe host freqHz.toNat) stack))) := by
  simp only [hackrfSetSampleRateManual, hackrfSetBasebandFilterBandwidth]
  split
  next hsent =>
    have hs := congrArg (·.2.sent) hsent
    simp only [sendRequest_sent] at hs
    simp [sendRequest_sent, ← hs]
  next => simp [sendRequest_sent]

def ParameterCall.received (host : ByteOrder) (call : ParameterCall) : ℕ × ℕ :=
  match host, call with
  | .big, setFreqExplicit ifFreqHz loFreqHz _ =>
      (2 ^ 32 * (ifFreqHz.toNat % 2 ^ 32), 2 ^ 32 * (loFreqHz.toNat % 2 ^ 32))
  | _, _ => call.values

theorem ParameterCall.transmitted_eq {call : ParameterCall}
    {s : ControlState} (haccepted : call.Accepted) :
    ∃ data, call.transmitted host usb stack undefined s = some data ∧
      call.decodeFields data = call.received host := by
  cases call with
  | setFreq freqHz =>
      have hhz : freqHz.toNat % freqOneMhz < 2 ^ 32 :=
        lt_trans (Nat.mod_lt _ (by decide)) (by decide)
      refine ⟨_, hackrfSetFreq_data haccepted, ?_⟩
      simp only [decodeFields, width]
      rw [decode_image (by norm_num), decode_image (by norm_num),
        load_store_toLe, load_store_of_disjoint (by omega), load_store_toLe,
        Nat.mod_eq_of_lt haccepted, Nat.mod_eq_of_lt hhz]
      cases host <;> rfl
  | setFreqExplicit ifFreqHz loFreqHz path =>
      refine ⟨_, hackrfSetFreqExplicit_data haccepted, ?_⟩
      simp only [decodeFields, width]
      rw [decode_image (by norm_num), decode_image (by norm_num),
        load_store_of_disjoint (by norm_num), load_store_of_disjoint
          (by norm_num), load_store_of_disjoint (m := 1) (by norm_num)]
      cases host with
      | little =>
          have hif : ifFreqHz.toNat < 256 ^ 8 := UInt64.toNat_lt _
          have hlo : loFreqHz.toNat < 256 ^ 8 := UInt64.toNat_lt _
          rw [toLe, toLe, load_store, load_store, Nat.mod_eq_of_lt hif,
            Nat.mod_eq_of_lt hlo]
          rfl
      | big =>
          rw [load_store_toLe_big, load_store_toLe_big]
          rfl
  | setSampleRateManual freqHz divider =>
      have hfreq : freqHz.toNat < 2 ^ 32 := UInt32.toNat_lt _
      have hdivider : divider.toNat < 2 ^ 32 := UInt32.toNat_lt _
      refine ⟨_, hackrfSetSampleRateManual_data, ?_⟩
      simp only [decodeFields, width]
      rw [decode_image (by norm_num), decode_image (by norm_num),
        load_store_toLe, load_store_of_disjoint (by omega), load_store_toLe,
        Nat.mod_eq_of_lt hfreq, Nat.mod_eq_of_lt hdivider]
      cases host <;> rfl

theorem ParameterCall.received_eq_values_iff {call : ParameterCall}
    (haccepted : call.Accepted) :
    call.received host = call.values ↔ host = .little ∨ ¬ call.SetsExplicit := by
  cases host with
  | little => exact ⟨fun _ => .inl rfl, fun _ => rfl⟩
  | big =>
      cases call with
      | setFreq freqHz => simp [received, SetsExplicit]
      | setSampleRateManual freqHz divider => simp [received, SetsExplicit]
      | setFreqExplicit ifFreqHz loFreqHz path =>
          have hlow : 2150000000 ≤ ifFreqHz.toNat := haccepted.1.1
          have hne : 2 ^ 32 * (ifFreqHz.toNat % 2 ^ 32) ≠ ifFreqHz.toNat := by
            omega
          have hfields : received .big (setFreqExplicit ifFreqHz loFreqHz path) ≠
              values (setFreqExplicit ifFreqHz loFreqHz path) :=
            fun hsame => hne (congrArg Prod.fst hsame)
          simp [hfields, SetsExplicit]

/-- The device reads the caller's values, except for the frequencies a
big-endian host gives to `hackrf_set_freq_explicit`. -/
theorem ParameterCall.transmitted_values_iff (host : ByteOrder) (usb : Usb)
    (stack : Memory) (undefined : UInt32) (s : ControlState)
    (call : ParameterCall) (haccepted : call.Accepted) :
    (∃ data, call.transmitted host usb stack undefined s = some data ∧
      call.decodeFields data = call.values) ↔
      host = .little ∨ ¬ call.SetsExplicit := by
  obtain ⟨data, htransmitted, hdata⟩ :=
    @transmitted_eq host stack usb undefined call s haccepted
  rw [← received_eq_values_iff haccepted, ← hdata]
  constructor
  · rintro ⟨data', htransmitted', hvalues⟩
    rw [htransmitted, Option.some.injEq] at htransmitted'
    rwa [htransmitted']
  · intro hvalues
    exact ⟨data, htransmitted, hvalues⟩

def obligingUsb : Usb where
  send transfer := transfer.data.length
  fetch _ := .received []
  deviceDescriptor := .ok 0x0104

theorem ParameterCall.accepted_explicit :
    (setFreqExplicit 2400000000 100000000 1).Accepted := by
  simp only [Accepted]
  decide

theorem ParameterCall.transmitted_values_explicit :
    ∃ data,
      (setFreqExplicit 2400000000 100000000 1).transmitted .little obligingUsb
        (fun _ => 0) 0 ⟨0, []⟩ = some data ∧
      (setFreqExplicit 2400000000 100000000 1).decodeFields data =
        (2400000000, 100000000) :=
  (transmitted_values_iff .little obligingUsb (fun _ => 0) 0 ⟨0, []⟩
    (.setFreqExplicit 2400000000 100000000 1) accepted_explicit).mpr (.inl rfl)

theorem ParameterCall.transmitted_values_fails_big :
    (setFreqExplicit 2400000000 100000000 1).Accepted ∧
      ¬ ∃ data,
        (setFreqExplicit 2400000000 100000000 1).transmitted .big obligingUsb
          (fun _ => 0) 0 ⟨0, []⟩ = some data ∧
        (setFreqExplicit 2400000000 100000000 1).decodeFields data =
          (2400000000, 100000000) := by
  obtain ⟨data, htransmitted, hdata⟩ :=
    @transmitted_eq .big (fun _ => 0) obligingUsb 0 _ ⟨0, []⟩ accepted_explicit
  refine ⟨accepted_explicit, ?_⟩
  rintro ⟨data', htransmitted', hvalues⟩
  rw [htransmitted, Option.some.injEq] at htransmitted'
  rw [← htransmitted', hdata] at hvalues
  simp [received] at hvalues

/-! ## Values read -/

/-- A call that reads a value, with the value the device has for it. -/
inductive ReadCall where
  | max2837Read (registerNumber : UInt8) (value : UInt16)
  | rffc5071Read (registerNumber : UInt8) (value : UInt16)
  | operacakeGpioTest (address : UInt8) (testResult : UInt16)
  | boardPartidSerialnoRead (partId : Fin 2 → UInt32) (serialNo : Fin 4 → UInt32)
  | cpldChecksum (crc : UInt32)

namespace ReadCall

def run (host : ByteOrder) (usb : Usb) (addr : ℕ) :
    ReadCall → CallerState → HackrfError × CallerState
  | max2837Read registerNumber _ => hackrfMax2837Read usb registerNumber addr
  | rffc5071Read registerNumber _ => hackrfRffc5071Read usb registerNumber addr
  | operacakeGpioTest address _ => hackrfOperacakeGpioTest usb address addr
  | boardPartidSerialnoRead _ _ =>
      hackrfBoardPartidSerialnoRead host usb addr
  | cpldChecksum _ => hackrfCpldChecksum host usb addr

def request : ReadCall → ControlIn
  | max2837Read registerNumber _ =>
      ⟨.max2837Read, 0, registerNumber.toNat, 2⟩
  | rffc5071Read registerNumber _ =>
      ⟨.rffc5071Read, 0, registerNumber.toNat, 2⟩
  | operacakeGpioTest address _ => ⟨.operacakeGpioTest, address.toNat, 0, 2⟩
  | boardPartidSerialnoRead _ _ => ⟨.boardPartidSerialnoRead, 0, 0, 24⟩
  | cpldChecksum _ => ⟨.cpldChecksum, 0, 0, 4⟩

def width : ReadCall → ℕ
  | boardPartidSerialnoRead _ _ => 4
  | cpldChecksum _ => 4
  | _ => 2

def values : ReadCall → List ℕ
  | max2837Read _ value => [value.toNat]
  | rffc5071Read _ value => [value.toNat]
  | operacakeGpioTest _ testResult => [testResult.toNat]
  | boardPartidSerialnoRead partId serialNo =>
      (List.ofFn partId ++ List.ofFn serialNo).map UInt32.toNat
  | cpldChecksum crc => [crc.toNat]

/-- The register exists, or the device's API has the request. -/
def Accepted (usb : Usb) : ReadCall → Prop
  | max2837Read registerNumber _ => registerNumber < 32
  | rffc5071Read registerNumber _ => registerNumber < 31
  | boardPartidSerialnoRead _ _ => True
  | _ => ∃ usbVersion, usb.deviceDescriptor = .ok usbVersion ∧
      0x0103 ≤ usbVersion

/-- The device sends its values little-endian. -/
def Sends (usb : Usb) (call : ReadCall) : Prop :=
  usb.fetch call.request =
    .received (call.values.flatMap (encode call.width))

/-- The numbers the caller finds at the address. -/
def stored (host : ByteOrder) (addr : ℕ) (mem : Memory) (call : ReadCall) :
    List ℕ :=
  (List.range call.values.length).map fun k =>
    load host call.width (addr + call.width * k) mem

/-- What the call leaves in memory: the bytes received, the words corrected. -/
def written (host : ByteOrder) (addr : ℕ) (mem : Memory) (call : ReadCall) :
    Memory :=
  let received := fill addr (call.values.flatMap (encode call.width)) mem
  if call.width = 4 then correctWords host addr call.values.length received
  else received

def EqualBytes (call : ReadCall) : Prop :=
  ∀ value ∈ call.values, value % 256 = value / 256

end ReadCall

theorem fetchRequest_received {least : ℤ} {transfer : ControlIn}
    {s : CallerState} {data : List UInt8}
    (hfetch : usb.fetch transfer = .received data)
    (hlength : data.length = transfer.length)
    (hleast : least ≤ transfer.length) :
    fetchRequest usb least transfer addr s =
      (.success, { s with mem := fill addr data s.mem }) := by
  have htake : data.take transfer.length = data :=
    List.take_of_length_le hlength.le
  simp only [fetchRequest, hfetch, ControlReply.result, hlength, htake]
  rw [if_neg (not_lt.mpr hleast)]

theorem usbApiRequired_of_version {version usbVersion : ℕ}
    {call : CallerState → HackrfError × CallerState} {s : CallerState}
    (hdescriptor : usb.deviceDescriptor = .ok usbVersion)
    (hversion : version ≤ usbVersion) :
    usbApiRequired usb version call s = call s := by
  simp only [usbApiRequired, hackrfUsbApiVersionRead, hdescriptor]
  rw [if_neg (not_lt.mpr hversion)]

theorem registerRead_of_lt {request : VendorRequest}
    {registers registerNumber : UInt8} {s : CallerState}
    (hregister : registerNumber < registers) :
    registerRead request registers usb registerNumber addr s =
      fetchRequest usb 2 ⟨request, 0, registerNumber.toNat, 2⟩ addr s := by
  rw [registerRead, if_neg (UInt8.not_le.mpr hregister)]

namespace ReadCall

theorem sent_length (call : ReadCall) :
    (call.values.flatMap (encode call.width)).length =
      call.request.length := by
  cases call with
  | boardPartidSerialnoRead partId serialNo =>
      simp [values, width, request, List.ofFn_succ]
  | _ => simp [values, width, request]

theorem fetchRequest_of_sends {call : ReadCall} {least : ℤ} {s : CallerState}
    (hsends : call.Sends usb) (hleast : least ≤ call.request.length) :
    fetchRequest usb least call.request addr s =
      (.success, { s with
        mem := fill addr (call.values.flatMap (encode call.width)) s.mem }) :=
  fetchRequest_received hsends call.sent_length hleast

theorem run_eq {call : ReadCall} {s : CallerState}
    (haccepted : call.Accepted usb) (hsends : call.Sends usb) :
    call.run host usb addr s =
      (.success, { s with mem := call.written host addr s.mem }) := by
  have hfetch : ∀ least : ℤ, least ≤ call.request.length →
      fetchRequest usb least call.request addr s = _ :=
    fun _ hleast => fetchRequest_of_sends hsends hleast
  cases call with
  | max2837Read registerNumber value =>
      rw [run, hackrfMax2837Read, registerRead_of_lt haccepted]
      exact hfetch 2 le_rfl
  | rffc5071Read registerNumber value =>
      rw [run, hackrfRffc5071Read, registerRead_of_lt haccepted]
      exact hfetch 2 le_rfl
  | operacakeGpioTest address testResult =>
      obtain ⟨usbVersion, hdescriptor, hversion⟩ := haccepted
      rw [run, hackrfOperacakeGpioTest,
        usbApiRequired_of_version hdescriptor hversion]
      exact hfetch 1 (by simp [request])
  | boardPartidSerialnoRead partId serialNo =>
      have hcount : (boardPartidSerialnoRead partId serialNo).values.length =
          6 := by simp [values]
      have hread := hfetch 24 (by simp [request])
      simp only [request] at hread
      simp only [run, hackrfBoardPartidSerialnoRead, written, hcount]
      rw [Nat.cast_ofNat, hread]
      rfl
  | cpldChecksum crc =>
      obtain ⟨usbVersion, hdescriptor, hversion⟩ := haccepted
      have hread := hfetch 4 (by simp [request])
      simp only [request] at hread
      rw [run, hackrfCpldChecksum,
        usbApiRequired_of_version hdescriptor hversion, hread]
      rfl

end ReadCall

theorem load_fill_two (hvalue : value < 256 ^ 2) :
    load host 2 addr (fill addr (encode 2 value) mem) = value ↔
      host = .little ∨ value % 256 = value / 256 := by
  rw [fill_encode]
  cases host with
  | little =>
      rw [load_store, Nat.mod_eq_of_lt hvalue]
      simp
  | big =>
      have hswap : swap 2 value = value / 256 % 256 + 256 * (value % 256) := by
        simp [swap, Nat.ofDigits, List.range_succ]
      rw [← store_swap, load_store, Nat.mod_eq_of_lt swap_lt, hswap]
      simp only [reduceCtorEq, false_or]
      omega

theorem ReadCall.stored_words {call : ReadCall} (hwidth : call.width = 4) :
    call.stored host addr (call.written host addr mem) =
      call.values := by
  have hlt : ∀ value ∈ call.values, value < 256 ^ 4 := by
    cases call with
    | boardPartidSerialnoRead partId serialNo =>
        intro value hvalue
        obtain ⟨word, -, rfl⟩ := List.mem_map.mp hvalue
        exact UInt32.toNat_lt _
    | cpldChecksum crc =>
        intro value hvalue
        rw [List.mem_singleton.mp hvalue]
        exact UInt32.toNat_lt _
    | _ => simp [width] at hwidth
  apply List.ext_getElem (by simp [stored])
  intro k hk hk'
  simp only [stored, List.getElem_map, List.getElem_range, written, hwidth,
    if_true]
  rw [load_correctWords hk', load_fill_flatMap hk']
  exact Nat.mod_eq_of_lt (hlt _ (List.getElem_mem hk'))

theorem ReadCall.stored_values_iff_of_two {call : ReadCall}
    (hwidth : call.width = 2) :
    call.stored host addr (call.written host addr mem) = call.values ↔
      host = .little ∨ call.EqualBytes := by
  have hone : ∃ value : UInt16, call.values = [value.toNat] := by
    cases call with
    | max2837Read registerNumber value => exact ⟨value, rfl⟩
    | rffc5071Read registerNumber value => exact ⟨value, rfl⟩
    | operacakeGpioTest address testResult => exact ⟨testResult, rfl⟩
    | _ => simp [width] at hwidth
  obtain ⟨value, hvalue⟩ := hone
  simp only [stored, written, EqualBytes, hwidth, hvalue]
  simpa using @load_fill_two host mem addr _ (UInt16.toNat_lt value)

/-- A number read is the one the device sent, except for a 16-bit value on a
big-endian host whose two bytes differ. -/
theorem ReadCall.stored_values_iff (host : ByteOrder) (usb : Usb) (addr : ℕ)
    (s : CallerState) (call : ReadCall) (haccepted : call.Accepted usb)
    (hsends : call.Sends usb) :
    ((call.run host usb addr s).1 = .success ∧
      call.stored host addr (call.run host usb addr s).2.mem = call.values) ↔
      host = .little ∨ call.width = 4 ∨ call.EqualBytes := by
  rw [run_eq haccepted hsends]
  simp only [true_and]
  by_cases hwidth : call.width = 4
  · simp [stored_words hwidth, hwidth]
  · have htwo : call.width = 2 := by
      cases call <;> simp_all [width]
    rw [stored_values_iff_of_two htwo]
    simp [hwidth]

/-- A device that answers every read of a register with `0x1234`. -/
def registerUsb : Usb where
  send _ := 0
  fetch _ := .received (encode 2 0x1234)
  deviceDescriptor := .ok 0x0104

theorem ReadCall.stored_values_register :
    (run .little registerUsb 0 (max2837Read 3 0x1234) ⟨0, fun _ => 0⟩).1 =
        .success ∧
      stored .little 0
        (run .little registerUsb 0 (max2837Read 3 0x1234)
          ⟨0, fun _ => 0⟩).2.mem (max2837Read 3 0x1234) = [0x1234] :=
  (stored_values_iff .little registerUsb 0 ⟨0, fun _ => 0⟩
    (max2837Read 3 0x1234) (by simp only [Accepted]; decide) rfl).mpr (.inl rfl)

theorem ReadCall.stored_values_fails_big :
    Accepted registerUsb (max2837Read 3 0x1234) ∧
      Sends registerUsb (max2837Read 3 0x1234) ∧
      stored .big 0
        (run .big registerUsb 0 (max2837Read 3 0x1234)
          ⟨0, fun _ => 0⟩).2.mem (max2837Read 3 0x1234) ≠
        (max2837Read 3 0x1234).values := by
  refine ⟨by simp only [Accepted]; decide, rfl, by decide⟩

end HackRF
