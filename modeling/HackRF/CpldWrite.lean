import HackRF.LibraryTypes
import HackRF.LoopRun

/-!
# Writing the CPLD image

`hackrf_cpld_write` sends an image in chunks of 512 bytes.  Its loop steps an
unsigned 32-bit index up to the length of the image, which need not be a
multiple of a chunk.
-/

namespace HackRF

def cpldChunkSize : ℕ := 512

/-- What `libusb_bulk_transfer` returns, and stores in `*transferred`. -/
structure BulkReply where
  result : ℤ
  transferred : ℕ

/-- How libusb answers the mode request, and the bulk transfers by their
number. -/
structure CpldReplies where
  mode : ℤ
  bulk : ℕ → BulkReply

/-- The index of the loop and `last_libusb_error`; the offsets into the image
of the transfers made so far, and the bytes which they have sent. -/
structure CpldState where
  i : UInt32
  lastLibusbError : ℤ
  offsets : List ℕ
  sent : List UInt8

def CpldState.reads (state : CpldState) : List ℕ :=
  state.offsets.flatMap fun offset => List.range' offset cpldChunkSize

/-- One round of the loop; `data` is the memory from the pointer on. -/
def cpldWriteStep (data : ℕ → UInt8) (totalLength : UInt32)
    (replies : CpldReplies) (state : CpldState) :
    CpldState ⊕ (HackrfError × CpldState) :=
  if state.i < totalLength then
    let reply := replies.bulk state.offsets.length
    let state := { state with
      offsets := state.offsets ++ [state.i.toNat]
      sent := state.sent ++
        (List.range' state.i.toNat reply.transferred).map data }
    if reply.result ≠ 0 then
      .inr (.libusb, { state with lastLibusbError := reply.result })
    else .inl { state with i := state.i + UInt32.ofNat cpldChunkSize }
  else .inr (.success, state)

def hackrfSetTransceiverMode (reply : ℤ) (state : CpldState) :
    HackrfError × CpldState :=
  if reply ≠ 0 then (.libusb, { state with lastLibusbError := reply })
  else (.success, state)

def CpldState.initial (lastLibusbError : ℤ) : CpldState where
  i := 0
  lastLibusbError := lastLibusbError
  offsets := []
  sent := []

/-- `hackrf_cpld_write`, its loop run with `fuel`. -/
def hackrfCpldWrite (fuel : ℕ) (data : ℕ → UInt8) (totalLength : UInt32)
    (replies : CpldReplies) (lastLibusbError : ℤ) :
    Option (HackrfError × CpldState) :=
  let (result, state) :=
    hackrfSetTransceiverMode replies.mode (.initial lastLibusbError)
  if result ≠ .success then some (result, state)
  else LoopRun.run (cpldWriteStep data totalLength replies) fuel state

structure CpldReplies.Succeed (replies : CpldReplies) : Prop where
  mode : replies.mode = 0
  result : ∀ k, (replies.bulk k).result = 0
  transferred : ∀ k, (replies.bulk k).transferred = cpldChunkSize

/-- The call ends, reads no byte behind the image and sends the image. -/
def SendsImage (data : ℕ → UInt8) (totalLength : UInt32)
    (replies : CpldReplies) (lastLibusbError : ℤ) : Prop :=
  ∃ fuel returned,
    hackrfCpldWrite fuel data totalLength replies lastLibusbError =
        some returned ∧
      (∀ offset ∈ returned.2.reads, offset < totalLength.toNat) ∧
      returned.2.sent = (List.range totalLength.toNat).map data

/-! ## The loop -/

variable {data : ℕ → UInt8} {totalLength : UInt32} {replies : CpldReplies}

theorem hackrfCpldWrite_of_mode (hmode : replies.mode = 0) (fuel : ℕ)
    (lastLibusbError : ℤ) :
    hackrfCpldWrite fuel data totalLength replies lastLibusbError =
      LoopRun.run (cpldWriteStep data totalLength replies) fuel
        (.initial lastLibusbError) := by
  simp [hackrfCpldWrite, hackrfSetTransceiverMode, hmode]

theorem sendsImage_iff_returns (hmode : replies.mode = 0)
    (lastLibusbError : ℤ) :
    SendsImage data totalLength replies lastLibusbError ↔
      ∃ returned,
        LoopRun.Returns (cpldWriteStep data totalLength replies)
          (.initial lastLibusbError) returned ∧
        (∀ offset ∈ returned.2.reads, offset < totalLength.toNat) ∧
        returned.2.sent = (List.range totalLength.toNat).map data := by
  simp only [SendsImage, hackrfCpldWrite_of_mode hmode, LoopRun.Returns]
  constructor
  · rintro ⟨fuel, returned, hrun, himage⟩
    exact ⟨returned, ⟨fuel, hrun⟩, himage⟩
  · rintro ⟨returned, ⟨fuel, hrun⟩, himage⟩
    exact ⟨fuel, returned, hrun, himage⟩

theorem chunkSize_toNat :
    (UInt32.ofNat cpldChunkSize).toNat = cpldChunkSize := rfl

def CpldState.next (data : ℕ → UInt8) (state : CpldState) : CpldState where
  i := state.i + UInt32.ofNat cpldChunkSize
  lastLibusbError := state.lastLibusbError
  offsets := state.offsets ++ [state.i.toNat]
  sent := state.sent ++ (List.range' state.i.toNat cpldChunkSize).map data

theorem CpldState.next_reads (data : ℕ → UInt8) (state : CpldState) :
    (state.next data).reads =
      state.reads ++ List.range' state.i.toNat cpldChunkSize := by
  simp [CpldState.reads, CpldState.next]

theorem CpldState.next_sent_length (data : ℕ → UInt8) (state : CpldState) :
    (state.next data).sent.length = state.sent.length + cpldChunkSize := by
  simp [CpldState.next]

theorem cpldWriteStep_of_lt (hreplies : replies.Succeed) {state : CpldState}
    (hlt : state.i < totalLength) :
    cpldWriteStep data totalLength replies state = .inl (state.next data) := by
  simp [cpldWriteStep, hlt, hreplies.result, hreplies.transferred,
    CpldState.next]

theorem cpldWriteStep_of_not_lt {state : CpldState}
    (hge : ¬ state.i < totalLength) :
    cpldWriteStep data totalLength replies state = .inr (.success, state) := by
  simp [cpldWriteStep, hge]

theorem cpldWriteStep_eq_inl (hreplies : replies.Succeed)
    {state next : CpldState}
    (hstep : cpldWriteStep data totalLength replies state = .inl next) :
    state.i < totalLength ∧ next = state.next data := by
  by_cases hlt : state.i < totalLength
  · rw [cpldWriteStep_of_lt hreplies hlt] at hstep
    exact ⟨hlt, (Sum.inl.inj hstep).symm⟩
  · rw [cpldWriteStep_of_not_lt hlt] at hstep
    cases hstep

theorem cpldWriteStep_eq_inr (hreplies : replies.Succeed) {state : CpldState}
    {returned : HackrfError × CpldState}
    (hstep : cpldWriteStep data totalLength replies state = .inr returned) :
    ¬ state.i < totalLength ∧ returned = (.success, state) := by
  by_cases hlt : state.i < totalLength
  · rw [cpldWriteStep_of_lt hreplies hlt] at hstep
    cases hstep
  · rw [cpldWriteStep_of_not_lt hlt] at hstep
    exact ⟨hlt, (Sum.inr.inj hstep).symm⟩

theorem chunk_dvd_of_returns (hreplies : replies.Succeed)
    {lastLibusbError : ℤ} {returned : HackrfError × CpldState}
    (hreturns : LoopRun.Returns (cpldWriteStep data totalLength replies)
      (.initial lastLibusbError) returned) :
    cpldChunkSize ∣ returned.2.sent.length := by
  refine hreturns.of_invariant
    (fun state => cpldChunkSize ∣ state.sent.length)
    (fun returned => cpldChunkSize ∣ returned.2.sent.length)
    ?_ ?_ (dvd_zero _)
  · intro state next hinv hstep
    obtain ⟨-, rfl⟩ := cpldWriteStep_eq_inl hreplies hstep
    rw [CpldState.next_sent_length]
    exact Nat.dvd_add hinv dvd_rfl
  · intro state result hinv hstep
    obtain ⟨-, rfl⟩ := cpldWriteStep_eq_inr hreplies hstep
    exact hinv

/-- The loop has sent the image up to its index, a whole number of chunks. -/
structure CpldState.Follows (data : ℕ → UInt8) (totalLength : UInt32)
    (state : CpldState) : Prop where
  aligned : cpldChunkSize ∣ state.i.toNat
  bounded : state.i.toNat ≤ totalLength.toNat
  reads : ∀ offset ∈ state.reads, offset < state.i.toNat
  sent : state.sent = (List.range state.i.toNat).map data

theorem CpldState.initial_follows (lastLibusbError : ℤ) :
    (CpldState.initial lastLibusbError).Follows data totalLength := by
  constructor <;> simp [CpldState.initial, CpldState.reads]

/-- In an image of whole chunks the index does not wrap around. -/
theorem CpldState.Follows.next_i (haligned : cpldChunkSize ∣ totalLength.toNat)
    {state : CpldState} (hfollows : state.Follows data totalLength)
    (hlt : state.i < totalLength) :
    (state.next data).i.toNat = state.i.toNat + cpldChunkSize ∧
      state.i.toNat + cpldChunkSize ≤ totalLength.toNat := by
  have hless : state.i.toNat < totalLength.toNat := hlt
  have hchunk : state.i.toNat + cpldChunkSize ≤ totalLength.toNat := by
    have hi := hfollows.aligned
    unfold cpldChunkSize at *
    omega
  have hsize := totalLength.toNat_lt
  refine ⟨?_, hchunk⟩
  rw [CpldState.next, UInt32.toNat_add, chunkSize_toNat]
  exact Nat.mod_eq_of_lt (by omega)

theorem CpldState.Follows.next (haligned : cpldChunkSize ∣ totalLength.toNat)
    {state : CpldState} (hfollows : state.Follows data totalLength)
    (hlt : state.i < totalLength) :
    (state.next data).Follows data totalLength := by
  obtain ⟨hi, hchunk⟩ := hfollows.next_i haligned hlt
  constructor
  · rw [hi]
    exact Nat.dvd_add hfollows.aligned dvd_rfl
  · exact hi.trans_le hchunk
  · intro offset hoffset
    rw [hi]
    rw [CpldState.next_reads, List.mem_append, List.mem_range'_1] at hoffset
    rcases hoffset with hbefore | hhere
    · have hless := hfollows.reads offset hbefore
      omega
    · exact hhere.2
  · rw [hi, List.range_eq_range', ← List.range'_append_1, Nat.zero_add,
      List.map_append, ← List.range_eq_range', ← hfollows.sent]
    rfl

theorem exists_returns_of_aligned (data : ℕ → UInt8)
    (hreplies : replies.Succeed)
    (haligned : cpldChunkSize ∣ totalLength.toNat) (lastLibusbError : ℤ) :
    ∃ returned, LoopRun.Returns (cpldWriteStep data totalLength replies)
      (.initial lastLibusbError) returned := by
  refine LoopRun.exists_returns_of_measure
    (CpldState.Follows data totalLength)
    (fun state => totalLength.toNat - state.i.toNat) ?_
    (CpldState.initial_follows lastLibusbError)
  intro state hfollows
  by_cases hlt : state.i < totalLength
  · left
    obtain ⟨hi, hchunk⟩ := hfollows.next_i haligned hlt
    refine ⟨state.next data, cpldWriteStep_of_lt hreplies hlt,
      hfollows.next haligned hlt, ?_⟩
    rw [hi]
    unfold cpldChunkSize at *
    omega
  · exact .inr ⟨_, cpldWriteStep_of_not_lt hlt⟩

theorem follows_of_returns (hreplies : replies.Succeed)
    (haligned : cpldChunkSize ∣ totalLength.toNat) {lastLibusbError : ℤ}
    {returned : HackrfError × CpldState}
    (hreturns : LoopRun.Returns (cpldWriteStep data totalLength replies)
      (.initial lastLibusbError) returned) :
    returned.2.Follows data totalLength ∧
      returned.2.i.toNat = totalLength.toNat := by
  refine hreturns.of_invariant
    (CpldState.Follows data totalLength)
    (fun returned => returned.2.Follows data totalLength ∧
      returned.2.i.toNat = totalLength.toNat)
    ?_ ?_ (CpldState.initial_follows lastLibusbError)
  · intro state next hfollows hstep
    obtain ⟨hlt, rfl⟩ := cpldWriteStep_eq_inl hreplies hstep
    exact hfollows.next haligned hlt
  · intro state result hfollows hstep
    obtain ⟨hlt, rfl⟩ := cpldWriteStep_eq_inr hreplies hstep
    have hge : totalLength.toNat ≤ state.i.toNat := Nat.le_of_not_lt hlt
    exact ⟨hfollows, le_antisymm hfollows.bounded hge⟩

/-- Behind the last whole chunk below 2^32 the index wraps around to 0. -/
theorem not_returns_of_long (hreplies : replies.Succeed)
    (hlong : 2 ^ 32 - cpldChunkSize < totalLength.toNat)
    (lastLibusbError : ℤ) (returned : HackrfError × CpldState) :
    ¬ LoopRun.Returns (cpldWriteStep data totalLength replies)
      (.initial lastLibusbError) returned := by
  refine LoopRun.not_returns_of_invariant
    (fun state => cpldChunkSize ∣ state.i.toNat) ?_ (dvd_zero _)
  intro state haligned
  have hsize := state.i.toNat_lt
  have hlt : state.i < totalLength := by
    change state.i.toNat < totalLength.toNat
    unfold cpldChunkSize at *
    omega
  refine ⟨state.next data, cpldWriteStep_of_lt hreplies hlt, ?_⟩
  rw [CpldState.next, UInt32.toNat_add, chunkSize_toNat]
  exact (Nat.dvd_mod_iff (by decide)).mpr (Nat.dvd_add haligned dvd_rfl)

/-- The image is sent exactly if it is a whole number of chunks.  Of any other
image the last transfer reads past the end, unless the loop never ends. -/
theorem sendsImage_iff (data : ℕ → UInt8) (totalLength : UInt32)
    {replies : CpldReplies} (hreplies : replies.Succeed)
    (lastLibusbError : ℤ) :
    SendsImage data totalLength replies lastLibusbError ↔
      cpldChunkSize ∣ totalLength.toNat := by
  rw [sendsImage_iff_returns hreplies.mode]
  constructor
  · rintro ⟨returned, hreturns, -, hsent⟩
    have hdvd := chunk_dvd_of_returns hreplies hreturns
    rwa [hsent, List.length_map, List.length_range] at hdvd
  · intro haligned
    obtain ⟨returned, hreturns⟩ :=
      exists_returns_of_aligned data hreplies haligned
        lastLibusbError
    obtain ⟨hfollows, hi⟩ := follows_of_returns hreplies haligned hreturns
    exact ⟨returned, hreturns, hi ▸ hfollows.reads, hi ▸ hfollows.sent⟩

def CpldReplies.granted : CpldReplies where
  mode := 0
  bulk := fun _ => ⟨0, cpldChunkSize⟩

theorem CpldReplies.granted_succeed : CpldReplies.granted.Succeed :=
  ⟨rfl, fun _ => rfl, fun _ => rfl⟩

theorem sendsImage_two_chunks :
    SendsImage (fun _ => 0xff) 1024 .granted 0 :=
  (sendsImage_iff _ _ CpldReplies.granted_succeed 0).mpr (by decide)

/-- Of an image of 100 bytes, 512 are sent. -/
theorem sendsImage_fails_short :
    (∃ returned,
      hackrfCpldWrite 2 (fun _ => 0xff) 100 .granted 0 = some returned ∧
      511 ∈ returned.2.reads ∧ returned.2.sent.length = 512) ∧
    ¬ SendsImage (fun _ => 0xff) 100 .granted 0 := by
  constructor
  · refine ⟨(.success, (CpldState.initial 0).next fun _ => 0xff), ?_, ?_, ?_⟩
    · rw [hackrfCpldWrite_of_mode rfl,
        LoopRun.run_succ_of_inl
          (cpldWriteStep_of_lt CpldReplies.granted_succeed (by decide)),
        LoopRun.run_succ_of_inr (cpldWriteStep_of_not_lt (by decide))]
    · rw [CpldState.next_reads]
      exact List.mem_append_right _ (List.mem_range'_1.mpr (by decide))
    · rw [CpldState.next_sent_length]
      rfl
  · rw [sendsImage_iff_returns rfl]
    rintro ⟨returned, hreturns, -, hsent⟩
    have hdvd := chunk_dvd_of_returns CpldReplies.granted_succeed hreturns
    rw [hsent, List.length_map, List.length_range] at hdvd
    exact absurd hdvd (by decide)

end HackRF
