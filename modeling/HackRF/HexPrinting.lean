import Mathlib.Tactic

/-!
# Printing a number in hexadecimal

`ullx` writes the digits of a number backwards from the last element of a
static array, and the prefix `0x` before them.  It keeps inside the array, but
the last digit stands where the terminator should be.

The array is described as memory from its first element on.
-/

namespace HackRF

/-- `sizeof(buf)`. -/
def ullxSize : ℕ := 34

/-- `"0123456789abcdef"[digit]`. -/
def hexDigit (digit : UInt64) : UInt8 :=
  [0x30, 0x31, 0x32, 0x33, 0x34, 0x35, 0x36, 0x37, 0x38, 0x39, 0x61, 0x62,
    0x63, 0x64, 0x65, 0x66].getD digit.toNat 0

/-- The array, the pointer into it, and the elements assigned so far. -/
structure UllxState where
  buf : ℤ → UInt8
  out : ℤ
  assigned : List ℤ

namespace UllxState

/-- `*out = byte`. -/
def put (byte : UInt8) (state : UllxState) : UllxState where
  buf := Function.update state.buf state.out byte
  out := state.out
  assigned := state.assigned ++ [state.out]

/-- `--out`. -/
def back (state : UllxState) : UllxState :=
  { state with out := state.out - 1 }

end UllxState

def ullxLoop (hval : UInt64) (state : UllxState) : UllxState :=
  let state := (state.put (hexDigit (hval % 16))).back
  if hval / 16 = 0 then state else ullxLoop (hval / 16) state
termination_by hval.toNat
decreasing_by
  rename_i hgoes
  have hdiv : (hval / 16).toNat = hval.toNat / 16 := UInt64.toNat_div _ _
  have hpos : (hval / 16).toNat ≠ 0 := by
    intro hzero
    exact hgoes (UInt64.toNat_inj.mp hzero)
  omega

/-- `ullx`, which returns `out`. -/
def ullx (val : UInt64) (buf : ℤ → UInt8) : UllxState :=
  let state := ullxLoop val ⟨buf, ullxSize - 1, []⟩
  (state.put 0x78).back.put 0x30

def ullxBuf (buf : ℤ → UInt8) (earlier : List UInt64) : ℤ → UInt8 :=
  earlier.foldl (fun buf val => (ullx val buf).buf) buf

/-! ## What is promised -/

def bytesAt (start : ℤ) (length : ℕ) (buf : ℤ → UInt8) : List UInt8 :=
  (List.range length).map fun k : ℕ => buf (start + k)

def hexDigits (val : UInt64) : List UInt8 :=
  (Nat.toDigits 16 val.toNat).map Char.toUInt8

def hexString (val : UInt64) : List UInt8 := 0x30 :: 0x78 :: hexDigits val

/-- Only elements of the array are assigned, and the pointer returned is that
of the string with its terminator in the array. -/
structure PrintsHex (val : UInt64) (state : UllxState) : Prop where
  inside : ∀ i ∈ state.assigned, 0 ≤ i ∧ i < ullxSize
  string : ∃ length : ℕ, 0 ≤ state.out ∧ state.out + length < ullxSize ∧
    bytesAt state.out length state.buf = hexString val ∧
      state.buf (state.out + length) = 0

/-! ## Writing backwards -/

@[simp] theorem bytesAt_length (start : ℤ) (length : ℕ) (buf : ℤ → UInt8) :
    (bytesAt start length buf).length = length := by
  rw [bytesAt, List.length_map, List.length_range]

theorem bytesAt_add (start : ℤ) (m n : ℕ) (buf : ℤ → UInt8) :
    bytesAt start (m + n) buf =
      bytesAt start m buf ++ bytesAt (start + m) n buf := by
  unfold bytesAt
  rw [List.range_add, List.map_append, List.map_map]
  congr 1
  apply List.map_congr_left
  intro k _
  rw [Function.comp_apply, Nat.cast_add, add_assoc]

theorem bytesAt_congr {start : ℤ} {length : ℕ} {buf buf' : ℤ → UInt8}
    (hsame : ∀ i ≥ start, buf i = buf' i) :
    bytesAt start length buf = bytesAt start length buf' := by
  apply List.map_congr_left
  intro k _
  exact hsame _ (by omega)

/-- The text has been written before the pointer, which now stands before
it. -/
structure Wrote (text : List UInt8) (before after : UllxState) : Prop where
  out : after.out = before.out - text.length
  text : bytesAt (after.out + 1) text.length after.buf = text
  assigned : ∀ i ∈ after.assigned,
    i ∈ before.assigned ∨ after.out < i ∧ i ≤ before.out
  frame : ∀ i, i ≤ after.out ∨ before.out < i → after.buf i = before.buf i

theorem wrote_put (byte : UInt8) (state : UllxState) :
    Wrote [byte] state (state.put byte).back := by
  constructor
  · rfl
  · simp [bytesAt, UllxState.put, UllxState.back]
  · intro i hi
    simp only [UllxState.put, UllxState.back, List.mem_append,
      List.mem_singleton] at hi ⊢
    exact hi.imp_right fun hlast => by omega
  · intro i hi
    apply Function.update_of_ne
    simp only [UllxState.back, UllxState.put] at hi
    omega

theorem Wrote.trans {first second : List UInt8}
    {state₀ state₁ state₂ : UllxState} (hfirst : Wrote first state₀ state₁)
    (hsecond : Wrote second state₁ state₂) :
    Wrote (second ++ first) state₀ state₂ := by
  have hout₁ := hfirst.out
  have hout₂ := hsecond.out
  constructor
  · rw [List.length_append]
    omega
  · have hmiddle : state₂.out + 1 + (second.length : ℤ) = state₁.out + 1 := by
      omega
    have hkept : bytesAt (state₁.out + 1) first.length state₂.buf =
        bytesAt (state₁.out + 1) first.length state₁.buf :=
      bytesAt_congr fun i hi => hsecond.frame i (.inr (by omega))
    rw [List.length_append, bytesAt_add, hsecond.text, hmiddle, hkept,
      hfirst.text]
  · intro i hi
    rcases hsecond.assigned i hi with hi | hi
    · rcases hfirst.assigned i hi with hi | hi
      · exact .inl hi
      · exact .inr (by omega)
    · exact .inr (by omega)
  · intro i hi
    rw [hsecond.frame i (by omega), hfirst.frame i (by omega)]

/-! ## The digits -/

theorem hexDigit_mod (hval : UInt64) :
    hexDigit (hval % 16) = (Nat.digitChar (hval.toNat % 16)).toUInt8 := by
  have htable : ∀ digit < 16, ([0x30, 0x31, 0x32, 0x33, 0x34, 0x35, 0x36, 0x37,
      0x38, 0x39, 0x61, 0x62, 0x63, 0x64, 0x65, 0x66] : List UInt8).getD digit 0 =
      (Nat.digitChar digit).toUInt8 := by decide
  have hmod : (hval % 16).toNat = hval.toNat % 16 := UInt64.toNat_mod _ _
  rw [hexDigit, hmod]
  exact htable _ (Nat.mod_lt _ (by decide))

theorem hexDigits_eq (hval : UInt64) :
    hexDigits hval =
      (if hval / 16 = 0 then [] else hexDigits (hval / 16)) ++
        [hexDigit (hval % 16)] := by
  have hdiv : (hval / 16).toNat = hval.toNat / 16 := UInt64.toNat_div _ _
  have hzero : hval / 16 = 0 ↔ hval.toNat < 16 := by
    rw [← UInt64.toNat_inj, hdiv]
    exact Nat.div_eq_zero_iff_lt (by decide)
  rw [hexDigit_mod, hexDigits, Nat.toDigits_eq_if (by decide)]
  by_cases hlt : hval.toNat < 16
  · rw [if_pos hlt, if_pos (hzero.mpr hlt), Nat.mod_eq_of_lt hlt]
    rfl
  · rw [if_neg hlt, if_neg (mt hzero.mp hlt), List.map_append, hexDigits, hdiv]
    rfl

theorem hexDigits_length_le (val : UInt64) : (hexDigits val).length ≤ 16 := by
  rw [hexDigits, List.length_map,
    Nat.length_toDigits_le_iff (by decide) (by decide)]
  exact val.toNat_lt

theorem wrote_ullxLoop (hval : UInt64) (state : UllxState) :
    Wrote (hexDigits hval) state (ullxLoop hval state) := by
  fun_induction ullxLoop hval state with
  | case1 hval state next hlast =>
      rw [hexDigits_eq, if_pos hlast]
      exact wrote_put _ state
  | case2 hval state next hgoes ih =>
      rw [hexDigits_eq, if_neg hgoes]
      exact (wrote_put _ state).trans ih

/-! ## The call -/

/-- The string ends with the array, after the elements it leaves alone. -/
structure FillsArray (val : UInt64) (before : ℤ → UInt8) (state : UllxState) :
    Prop where
  out : state.out + (hexString val).length = ullxSize
  string : bytesAt state.out (hexString val).length state.buf = hexString val
  assigned : ∀ i ∈ state.assigned, 16 ≤ i ∧ i < ullxSize
  frame : ∀ i, i < 16 ∨ (ullxSize : ℤ) ≤ i → state.buf i = before i

theorem ullx_fillsArray (val : UInt64) (buf : ℤ → UInt8) :
    FillsArray val buf (ullx val buf) := by
  have hwrote : Wrote (hexString val) ⟨buf, ullxSize - 1, []⟩
      (ullx val buf).back :=
    ((wrote_ullxLoop val ⟨buf, ullxSize - 1, []⟩).trans (wrote_put 0x78 _)).trans
      (wrote_put 0x30 _)
  have hout : (ullx val buf).out - 1 =
      ullxSize - 1 - ((hexString val).length : ℤ) := hwrote.out
  have htext := hwrote.text
  have hback : (ullx val buf).back.out + 1 = (ullx val buf).out :=
    sub_add_cancel _ _
  rw [hback] at htext
  have hdigits := hexDigits_length_le val
  have hlength : (hexString val).length = (hexDigits val).length + 2 := rfl
  have hsize : ullxSize = 34 := rfl
  constructor
  · omega
  · exact htext
  · intro i hi
    rcases hwrote.assigned i hi with hi | ⟨hlow, hhigh⟩
    · cases hi
    · change (ullx val buf).out - 1 < i at hlow
      change i ≤ (ullxSize : ℤ) - 1 at hhigh
      omega
  · intro i hi
    apply hwrote.frame i
    change i ≤ (ullx val buf).out - 1 ∨ (ullxSize : ℤ) - 1 < i
    omega

theorem FillsArray.not_printsHex {val : UInt64} {before : ℤ → UInt8}
    {state : UllxState} (hfills : FillsArray val before state) :
    ¬ PrintsHex val state := by
  intro hprints
  obtain ⟨length, -, hinside, hstring, -⟩ := hprints.string
  have hlength := congrArg List.length hstring
  rw [bytesAt_length] at hlength
  have hout := hfills.out
  rw [← hlength] at hout
  omega

/-- Whatever was printed before, there is no room for the terminator. -/
theorem ullx_not_printsHex (buf : ℤ → UInt8) (earlier : List UInt64)
    (val : UInt64) : ¬ PrintsHex val (ullx val (ullxBuf buf earlier)) :=
  (ullx_fillsArray val _).not_printsHex

/-- Zero printed into the fresh array ends at its last element. -/
theorem ullx_not_printsHex_zero :
    (ullx 0 fun _ => 0).out = 31 ∧
      bytesAt 31 3 (ullx 0 fun _ => 0).buf = [0x30, 0x78, 0x30] ∧
      ¬ PrintsHex 0 (ullx 0 fun _ => 0) := by
  have hfills := ullx_fillsArray 0 fun _ => 0
  have hstring : hexString 0 = [0x30, 0x78, 0x30] := by decide
  have hout : (ullx 0 fun _ => 0).out = 31 := by
    have hend := hfills.out
    rw [hstring] at hend
    simp only [List.length_cons, List.length_nil, ullxSize] at hend
    omega
  have htext := hfills.string
  rw [hstring, hout] at htext
  exact ⟨hout, htext, hfills.not_printsHex⟩

end HackRF
