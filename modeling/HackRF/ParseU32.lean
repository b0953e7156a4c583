import HackRF.LibraryTypes
import HackRF.Strtoul

/-!
# Numbers on the command line

`parse_u32` takes a prefix `0x` or `0b` off a string and leaves the rest to
`strtoul`, which reads more than digits and has 64 bits.  `parse_u32_range`
cuts a string at its first colon and parses both parts.

A string is the list of the bytes before its terminator.
-/

namespace HackRF.Sweep

open Strtoul

/-- The base which the prefix asks for, and the string after it. -/
def splitBase (s : List UInt8) : ℕ × List UInt8 :=
  if 2 < s.length then
    match s with
    | 0x30 :: x :: rest =>
        if x = 0x78 ∨ x = 0x58 then (16, rest)
        else if x = 0x62 ∨ x = 0x42 then (2, rest)
        else (10, s)
    | _ => (10, s)
  else (10, s)

/-- `parse_u32`, with what it leaves in `*value`.  `strtoul` read nothing if it
leaves the whole string. -/
def parseU32 (s : List UInt8) (value : UInt32) : HackrfError × UInt32 :=
  let (base, t) := splitBase s
  let (ulongValue, left) := strtoul t base
  if t.length ≠ left.length ∧ left = [] then (.success, ulongValue.toUInt32)
  else (.invalidParam, value)

/-! ## The grammar of numbers -/

inductive Numeral : List UInt8 → ℕ → Prop where
  | decimal {digits : List UInt8} (hne : digits ≠ [])
      (hdigits : ∀ c ∈ digits, isDigit 10 c = true) :
      Numeral digits (magnitude 10 digits)
  | hexadecimal {x : UInt8} (hx : x = 0x78 ∨ x = 0x58) {digits : List UInt8}
      (hne : digits ≠ []) (hdigits : ∀ c ∈ digits, isDigit 16 c = true) :
      Numeral (0x30 :: x :: digits) (magnitude 16 digits)
  | binary {x : UInt8} (hx : x = 0x62 ∨ x = 0x42) {digits : List UInt8}
      (hne : digits ≠ []) (hdigits : ∀ c ∈ digits, isDigit 2 c = true) :
      Numeral (0x30 :: x :: digits) (magnitude 2 digits)

/-- The string is accepted if it denotes a number of 32 bits, with its value,
and rejected with the value left alone if it does not. -/
def ParsesExactly (s : List UInt8) : Prop :=
  ∀ value,
    (∃ v < 2 ^ 32, Numeral s v ∧
      parseU32 s value = (.success, UInt32.ofNat v)) ∨
    (¬ ∃ v < 2 ^ 32, Numeral s v) ∧ parseU32 s value = (.invalidParam, value)

/-- What `strtoul` is given can only be read as digits, and these denote a
number of 32 bits. -/
def ReadsPlainly (s : List UInt8) : Prop :=
  ∀ reading : Reading (splitBase s).1 (splitBase s).2,
    reading.spaces = [] ∧ reading.sign = [] ∧ reading.basePrefix = [] ∧
      magnitude (splitBase s).1 reading.digits < 2 ^ 32

variable {s : List UInt8}

theorem splitBase_cases (s : List UInt8) :
    splitBase s = (10, s) ∨
      (∃ x rest, s = 0x30 :: x :: rest ∧ (x = 0x78 ∨ x = 0x58) ∧
        splitBase s = (16, rest)) ∨
      ∃ x rest, s = 0x30 :: x :: rest ∧ (x = 0x62 ∨ x = 0x42) ∧
        splitBase s = (2, rest) := by
  unfold splitBase
  split_ifs
  · split
    next x rest _ =>
      split_ifs with hhexadecimal hbinary
      · exact .inr (.inl ⟨x, rest, rfl, hhexadecimal, rfl⟩)
      · exact .inr (.inr ⟨x, rest, rfl, hbinary, rfl⟩)
      · exact .inl rfl
    next => exact .inl rfl
  · exact .inl rfl

theorem splitBase_le (s : List UInt8) : (splitBase s).1 ≤ 36 := by
  rcases splitBase_cases s with hnone | ⟨x, rest, -, -, hsome⟩ |
    ⟨x, rest, -, -, hsome⟩
  · rw [hnone]
    norm_num
  · rw [hsome]
    norm_num
  · rw [hsome]
    norm_num

theorem splitBase_of_digits (hdigits : ∀ c ∈ s, isDigit 10 c = true) :
    splitBase s = (10, s) := by
  rcases splitBase_cases s with hnone | ⟨x, rest, rfl, hx, -⟩ |
    ⟨x, rest, rfl, hx, -⟩
  · exact hnone
  · have hdigit := hdigits x (by simp)
    rcases hx with rfl | rfl <;> exact absurd hdigit (by decide)
  · have hdigit := hdigits x (by simp)
    rcases hx with rfl | rfl <;> exact absurd hdigit (by decide)

theorem splitBase_hexadecimal {x : UInt8} (hx : x = 0x78 ∨ x = 0x58)
    {digits : List UInt8} (hne : digits ≠ []) :
    splitBase (0x30 :: x :: digits) = (16, digits) := by
  have hpos := List.length_pos_of_ne_nil hne
  rw [splitBase, if_pos (by simp only [List.length_cons]; omega)]
  exact if_pos hx

theorem splitBase_binary {x : UInt8} (hx : x = 0x62 ∨ x = 0x42)
    {digits : List UInt8} (hne : digits ≠ []) :
    splitBase (0x30 :: x :: digits) = (2, digits) := by
  have hpos := List.length_pos_of_ne_nil hne
  rw [splitBase, if_pos (by simp only [List.length_cons]; omega)]
  refine (if_neg ?_).trans (if_pos hx)
  rcases hx with rfl | rfl <;> decide

/-- A string denotes a number if what is left after its prefix are digits. -/
theorem numeral_iff {v : ℕ} :
    Numeral s v ↔ (splitBase s).2 ≠ [] ∧
      (∀ c ∈ (splitBase s).2, isDigit (splitBase s).1 c = true) ∧
        v = magnitude (splitBase s).1 (splitBase s).2 := by
  constructor
  · rintro (⟨hne, hdigits⟩ | ⟨hx, hne, hdigits⟩ | ⟨hx, hne, hdigits⟩)
    · rw [splitBase_of_digits hdigits]
      exact ⟨hne, hdigits, rfl⟩
    · rw [splitBase_hexadecimal hx hne]
      exact ⟨hne, hdigits, rfl⟩
    · rw [splitBase_binary hx hne]
      exact ⟨hne, hdigits, rfl⟩
  · rintro ⟨hne, hdigits, rfl⟩
    rcases splitBase_cases s with hnone | ⟨x, rest, rfl, hx, hsome⟩ |
      ⟨x, rest, rfl, hx, hsome⟩
    · rw [hnone] at hne hdigits ⊢
      exact .decimal hne hdigits
    · rw [hsome] at hne hdigits ⊢
      exact .hexadecimal hx hne hdigits
    · rw [hsome] at hne hdigits ⊢
      exact .binary hx hne hdigits

/-! ## What is accepted -/

theorem parseU32_of_reading
    (reading : Reading (splitBase s).1 (splitBase s).2) (value : UInt32) :
    parseU32 s value = (.success, reading.value.toUInt32) := by
  obtain ⟨hne, -⟩ := (strtoul_end_iff (splitBase_le s)).mpr ⟨reading⟩
  have hlength := List.length_pos_of_ne_nil hne
  rw [parseU32]
  dsimp only
  rw [strtoul_of_reading (splitBase_le s) reading]
  exact if_pos ⟨by simp only [List.length_nil]; omega, rfl⟩

theorem parseU32_of_no_reading
    (hnone : ¬ Nonempty (Reading (splitBase s).1 (splitBase s).2))
    (value : UInt32) : parseU32 s value = (.invalidParam, value) := by
  rw [parseU32]
  dsimp only
  apply if_neg
  rintro ⟨hlength, hend⟩
  refine hnone ((strtoul_end_iff (splitBase_le s)).mp ⟨?_, hend⟩)
  intro hnil
  rw [hend, hnil] at hlength
  exact hlength rfl

theorem toUlong_toUInt32 {v : ℕ} (hv : v < 2 ^ 32) :
    (toUlong false v).toUInt32 = UInt32.ofNat v := by
  unfold toUlong
  rw [if_neg (by omega)]
  simp

theorem ParsesExactly.readsPlainly (hexact : ParsesExactly s) :
    ReadsPlainly s := by
  intro reading
  rcases hexact 0 with ⟨v, hv, hnumeral, -⟩ | ⟨-, hrejected⟩
  · obtain ⟨hne, hdigits, rfl⟩ := numeral_iff.mp hnumeral
    obtain ⟨hspaces, hsign, hmark, hsame⟩ :=
      reading.eq_ofDigits (splitBase_le s) hdigits
    rw [hsame]
    exact ⟨hspaces, hsign, hmark, hv⟩
  · rw [parseU32_of_reading reading] at hrejected
    cases hrejected

/-- The numbers are parsed as they should be exactly if `strtoul` finds nothing
but digits of a number of 32 bits. -/
theorem parsesExactly_iff (s : List UInt8) :
    ParsesExactly s ↔ ReadsPlainly s := by
  constructor
  · exact ParsesExactly.readsPlainly
  · intro hplain value
    by_cases hreading : Nonempty (Reading (splitBase s).1 (splitBase s).2)
    · obtain ⟨reading⟩ := hreading
      obtain ⟨hspaces, hsign, hmark, hv⟩ := hplain reading
      have hsame : (splitBase s).2 = reading.digits := by
        have heq := reading.eq
        rwa [hspaces, hsign, hmark] at heq
      refine .inl ⟨_, hv, numeral_iff.mpr ⟨?_, ?_, congrArg _ hsame.symm⟩, ?_⟩
      · rw [hsame]
        exact reading.digits_ne
      · rw [hsame]
        exact reading.isDigit_digits
      · rw [parseU32_of_reading reading, Reading.value, hsign]
        exact congrArg _ (toUlong_toUInt32 hv)
    · refine .inr ⟨?_, parseU32_of_no_reading hreading value⟩
      rintro ⟨v, -, hnumeral⟩
      obtain ⟨hne, hdigits, -⟩ := numeral_iff.mp hnumeral
      exact hreading ⟨.ofDigits hne hdigits⟩

/-- The strings `-1` and `4294967296` are accepted. -/
theorem parsesExactly_fails :
    ¬ ParsesExactly [0x2D, 0x31] ∧
      ¬ ParsesExactly
        [0x34, 0x32, 0x39, 0x34, 0x39, 0x36, 0x37, 0x32, 0x39, 0x36] := by
  constructor
  · intro hexact
    have hplain := hexact.readsPlainly {
      spaces := []
      sign := [0x2D]
      basePrefix := []
      digits := [0x31]
      eq := rfl
      isSpace_spaces := by simp
      sign_mem := by simp
      basePrefix_mem := .inl rfl
      digits_ne := by simp
      isDigit_digits := List.all_eq_true.mp rfl }
    exact absurd hplain.2.1 (by simp)
  · intro hexact
    have hplain := hexact.readsPlainly
      (.ofDigits (by decide) (List.all_eq_true.mp rfl))
    exact absurd hplain.2.2.2 (by decide)

/-! ## Ranges -/

/-- The string at the beginning of a byte array. -/
def cString (bytes : List UInt8) : List UInt8 := bytes.takeWhile (· ≠ 0)

/-- The string and the two outputs, where `parse_u32_range` leaves them. -/
structure RangeState where
  s : List UInt8
  valueMin : UInt32
  valueMax : UInt32
  deriving DecidableEq, Repr

/-- `parse_u32_range`: the separator is overwritten before the parts are
parsed. -/
def parseU32Range (state : RangeState) : HackrfError × RangeState :=
  match state.s.idxOf? 0x3A with
  | none => (.invalidParam, state)
  | some sep =>
      let state := { state with s := state.s.set sep 0 }
      let (result, valueMin) := parseU32 (cString state.s) state.valueMin
      let state := { state with valueMin := valueMin }
      if result ≠ .success then (result, state)
      else
        let (result, valueMax) :=
          parseU32 (cString (state.s.drop (sep + 1))) state.valueMax
        let state := { state with valueMax := valueMax }
        if result ≠ .success then (result, state)
        else (.success, state)

/-- The strict reading of a range: on success both parts are numbers, and
otherwise nothing has changed. -/
def AllOrNothing (state : RangeState) : Prop :=
  ((parseU32Range state).1 = .success →
    ∃ first second, state.s = first ++ 0x3A :: second ∧ 0x3A ∉ first ∧
      parseU32 first state.valueMin =
        (.success, (parseU32Range state).2.valueMin) ∧
      parseU32 second state.valueMax =
        (.success, (parseU32Range state).2.valueMax)) ∧
    ((parseU32Range state).1 ≠ .success → (parseU32Range state).2 = state)

structure RangeOutcome (before : RangeState) (result : HackrfError)
    (after : RangeState) : Prop where
  success : result = .success →
    ∃ first second, before.s = first ++ 0x3A :: second ∧ 0x3A ∉ first ∧
      parseU32 first before.valueMin = (.success, after.valueMin) ∧
      parseU32 second before.valueMax = (.success, after.valueMax)
  max : result ≠ .success → after.valueMax = before.valueMax
  noColon : 0x3A ∉ before.s → after = before
  cut : ∀ first second, before.s = first ++ 0x3A :: second → 0x3A ∉ first →
    after.s = first ++ 0 :: second ∧
      parseU32 first before.valueMin =
        ((parseU32 first before.valueMin).1, after.valueMin) ∧
      ((parseU32 first before.valueMin).1 ≠ .success →
        after.valueMin = before.valueMin)

theorem parseU32_of_failure {value : UInt32}
    (hfailure : (parseU32 s value).1 ≠ .success) :
    parseU32 s value = (.invalidParam, value) := by
  by_cases hreading : Nonempty (Reading (splitBase s).1 (splitBase s).2)
  · obtain ⟨reading⟩ := hreading
    rw [parseU32_of_reading reading] at hfailure
    exact absurd rfl hfailure
  · exact parseU32_of_no_reading hreading value

theorem ne_nul_of_mem {bytes : List UInt8} (hnul : 0 ∉ bytes) :
    ∀ c ∈ bytes, decide (c ≠ 0) = true := by
  intro c hc
  rw [decide_eq_true_eq]
  rintro rfl
  exact hnul hc

theorem cString_append {first second : List UInt8} (hnul : 0 ∉ first) :
    cString (first ++ 0 :: second) = first := by
  rw [cString, List.takeWhile_append_of_pos (ne_nul_of_mem hnul)]
  simp

theorem cString_of_notMem {bytes : List UInt8} (hnul : 0 ∉ bytes) :
    cString bytes = bytes :=
  List.takeWhile_eq_self_iff.mpr (ne_nul_of_mem hnul)

theorem parseU32Range_of_split {state : RangeState}
    (hterminated : 0 ∉ state.s) {first second : List UInt8}
    (hsplit : state.s = first ++ 0x3A :: second) (hcolon : 0x3A ∉ first) :
    parseU32Range state =
      if (parseU32 first state.valueMin).1 = .success then
        ((parseU32 second state.valueMax).1,
          ⟨first ++ 0 :: second, (parseU32 first state.valueMin).2,
            (parseU32 second state.valueMax).2⟩)
      else
        ((parseU32 first state.valueMin).1,
          ⟨first ++ 0 :: second, (parseU32 first state.valueMin).2,
            state.valueMax⟩) := by
  rw [hsplit] at hterminated
  simp only [List.mem_append, List.mem_cons, not_or] at hterminated
  obtain ⟨hfirst, -, hsecond⟩ := hterminated
  have hsep : (first ++ 0x3A :: second).idxOf? 0x3A = some first.length := by
    rw [List.idxOf?_eq_some_iff]
    refine ⟨by simp, by simp, ?_⟩
    intro j hj hsame
    rw [List.getElem_append_left hj] at hsame
    exact hcolon (hsame ▸ List.getElem_mem hj)
  have hset : (first ++ 0x3A :: second).set first.length 0 =
      first ++ 0 :: second := by
    rw [List.set_append_right _ _ le_rfl, Nat.sub_self, List.set_cons_zero]
  have hdrop : (first ++ 0 :: second).drop (first.length + 1) = second := by
    rw [← List.drop_drop, List.drop_left]
    rfl
  unfold parseU32Range
  rw [hsplit, hsep]
  dsimp only
  rw [hset, cString_append hfirst, hdrop, cString_of_notMem hsecond]
  by_cases hmin : (parseU32 first state.valueMin).1 = .success
  · rw [if_neg (not_not.mpr hmin), if_pos hmin]
    split_ifs with hmax
    · rfl
    · rw [not_not.mp hmax]
  · rw [if_pos hmin, if_neg hmin]

theorem parseU32Range_of_notMem {state : RangeState}
    (hcolon : 0x3A ∉ state.s) :
    parseU32Range state = (.invalidParam, state) := by
  unfold parseU32Range
  rw [List.idxOf?_eq_none_iff.mpr hcolon]

/-- A successful call sets both outputs.  A failing one leaves the maximum
alone, but has cut the string if there is a colon, and has set the minimum if
the first part is a number. -/
theorem parseU32Range_outcome (state : RangeState)
    (hterminated : 0 ∉ state.s) :
    RangeOutcome state (parseU32Range state).1 (parseU32Range state).2 := by
  refine { success := ?_, max := ?_, noColon := ?_, cut := ?_ }
  · intro hsuccess
    by_cases hcolon : 0x3A ∈ state.s
    · obtain ⟨first, second, hsplit, hfirst⟩ :=
        List.eq_append_cons_of_mem hcolon
      refine ⟨first, second, hsplit, hfirst, ?_⟩
      rw [parseU32Range_of_split hterminated hsplit hfirst] at hsuccess ⊢
      split_ifs at hsuccess ⊢ with hmin
      · exact ⟨Prod.ext hmin rfl, Prod.ext hsuccess rfl⟩
      · exact absurd hsuccess hmin
    · rw [parseU32Range_of_notMem hcolon] at hsuccess
      cases hsuccess
  · intro hfailure
    by_cases hcolon : 0x3A ∈ state.s
    · obtain ⟨first, second, hsplit, hfirst⟩ :=
        List.eq_append_cons_of_mem hcolon
      rw [parseU32Range_of_split hterminated hsplit hfirst] at hfailure ⊢
      split_ifs at hfailure ⊢ with hmin
      · rw [parseU32_of_failure hfailure]
      · rfl
    · rw [parseU32Range_of_notMem hcolon]
  · intro hcolon
    rw [parseU32Range_of_notMem hcolon]
  · intro first second hsplit hfirst
    rw [parseU32Range_of_split hterminated hsplit hfirst]
    split_ifs with hmin
    · exact ⟨rfl, rfl, fun hfailure => absurd hmin hfailure⟩
    · refine ⟨rfl, rfl, fun hfailure => ?_⟩
      rw [parseU32_of_failure hfailure]

theorem parseU32Range_outcome_pair :
    RangeOutcome ⟨[0x31, 0x3A, 0x32], 0, 0⟩
      (parseU32Range ⟨[0x31, 0x3A, 0x32], 0, 0⟩).1
      (parseU32Range ⟨[0x31, 0x3A, 0x32], 0, 0⟩).2 :=
  parseU32Range_outcome ⟨[0x31, 0x3A, 0x32], 0, 0⟩ (by decide)

/-- The string `1:x` is rejected when it has been cut and its first part has
been stored. -/
theorem parseU32Range_partial :
    parseU32Range ⟨[0x31, 0x3A, 0x78], 0, 0⟩ =
        (.invalidParam, ⟨[0x31, 0, 0x78], 1, 0⟩) ∧
      ¬ AllOrNothing ⟨[0x31, 0x3A, 0x78], 0, 0⟩ := by
  have hcall : parseU32Range ⟨[0x31, 0x3A, 0x78], 0, 0⟩ =
      (.invalidParam, ⟨[0x31, 0, 0x78], 1, 0⟩) := by decide
  refine ⟨hcall, ?_⟩
  rintro ⟨-, hunchanged⟩
  rw [hcall] at hunchanged
  exact absurd (hunchanged (by decide)) (by decide)

end HackRF.Sweep
