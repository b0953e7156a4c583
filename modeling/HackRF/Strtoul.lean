import Mathlib.Tactic
import Mathlib.Data.List.TakeWhile

/-!
# Reading an unsigned number

`strtoul` of the C library, on byte strings without their terminator.  It skips
white space, takes a sign, for base 16 also a prefix, and then all digits that
follow.  A number which does not fit 64 bits is saturated, and a sign `-`
negates the others.  The result comes with what is left of the string.

A reading of a string divides it into these parts.  The strings that are read to
their end are the ones which have a reading, and the parts determine the value.
-/

namespace Strtoul

/-- `isspace` in the C locale. -/
def isSpace (c : UInt8) : Bool := c == 0x20 || (9 ≤ c && c ≤ 13)

/-- The value of a digit or letter, and 36 for other bytes. -/
def digitValue (c : UInt8) : ℕ :=
  if 0x30 ≤ c ∧ c ≤ 0x39 then c.toNat - 0x30
  else if 0x61 ≤ c ∧ c ≤ 0x7A then c.toNat - 0x61 + 10
  else if 0x41 ≤ c ∧ c ≤ 0x5A then c.toNat - 0x41 + 10
  else 36

def isDigit (base : ℕ) (c : UInt8) : Bool := digitValue c < base

def magnitude (base : ℕ) (digits : List UInt8) : ℕ :=
  digits.foldl (fun value c => value * base + digitValue c) 0

def skipSign : List UInt8 → Bool × List UInt8
  | 0x2D :: rest => (true, rest)
  | 0x2B :: rest => (false, rest)
  | s => (false, s)

/-- The prefix `0x` is taken only if a digit follows. -/
def skipPrefix (base : ℕ) : List UInt8 → List UInt8
  | 0x30 :: x :: c :: rest =>
      if base = 16 ∧ (x = 0x78 ∨ x = 0x58) ∧ isDigit base c then c :: rest
      else 0x30 :: x :: c :: rest
  | s => s

def toUlong (negative : Bool) (magnitude : ℕ) : UInt64 :=
  if 2 ^ 64 ≤ magnitude then UInt64.ofNat (2 ^ 64 - 1)
  else if negative then -UInt64.ofNat magnitude
  else UInt64.ofNat magnitude

/-- `strtoul`, with what is left of the string at `endptr`. -/
def strtoul (s : List UInt8) (base : ℕ) : UInt64 × List UInt8 :=
  let (negative, t) := skipSign (s.dropWhile isSpace)
  let t := skipPrefix base t
  let digits := t.takeWhile (isDigit base)
  if digits = [] then (0, s)
  else (toUlong negative (magnitude base digits), t.dropWhile (isDigit base))

/-! ## Readings -/

/-- A division of a string into the parts which `strtoul` expects. -/
structure Reading (base : ℕ) (s : List UInt8) where
  spaces : List UInt8
  sign : List UInt8
  basePrefix : List UInt8
  digits : List UInt8
  eq : s = spaces ++ (sign ++ (basePrefix ++ digits))
  isSpace_spaces : ∀ c ∈ spaces, isSpace c = true
  sign_mem : sign ∈ [[], [0x2B], [0x2D]]
  basePrefix_mem : basePrefix = [] ∨
    base = 16 ∧ basePrefix ∈ [[0x30, 0x78], [0x30, 0x58]]
  digits_ne : digits ≠ []
  isDigit_digits : ∀ c ∈ digits, isDigit base c = true

variable {base : ℕ} {c : UInt8} {s : List UInt8}

def Reading.value (reading : Reading base s) : UInt64 :=
  toUlong (reading.sign == [0x2D]) (magnitude base reading.digits)

/-! ## Bytes -/

theorem isDigit_iff :
    isDigit base c = true ↔ digitValue c < base := by
  simp [isDigit]

theorem lt_of_isSpace (hspace : isSpace c = true) : c < 0x30 := by
  simp only [isSpace, Bool.or_eq_true, beq_iff_eq, Bool.and_eq_true,
    decide_eq_true_eq] at hspace
  rcases hspace with rfl | ⟨-, hle⟩
  · decide
  · exact UInt8.lt_of_le_of_lt hle (by decide)

/-- The digits come after the white space and the signs. -/
theorem le_of_isDigit (hbase : base ≤ 36) (hdigit : isDigit base c = true) :
    0x30 ≤ c := by
  by_contra hbelow
  have hvalue : digitValue c = 36 := by
    unfold digitValue
    rw [if_neg fun h => hbelow h.1,
      if_neg fun h => hbelow (UInt8.le_trans (by decide) h.1),
      if_neg fun h => hbelow (UInt8.le_trans (by decide) h.1)]
  rw [isDigit_iff, hvalue] at hdigit
  omega

theorem not_isSpace_of_le (hle : 0x30 ≤ c) : isSpace c = false := by
  by_contra hspace
  exact absurd (lt_of_isSpace (Bool.eq_true_of_not_eq_false hspace))
    (UInt8.not_lt.mpr hle)

theorem lt_of_mem_sign {sign : List UInt8}
    (hsign : sign ∈ [[], [0x2B], [0x2D]]) (hc : c ∈ sign) :
    c < 0x30 ∧ isSpace c = false := by
  simp only [List.mem_cons, List.not_mem_nil, or_false] at hsign
  rcases hsign with rfl | rfl | rfl
  · cases hc
  · rw [List.mem_singleton.mp hc]
    decide
  · rw [List.mem_singleton.mp hc]
    decide

theorem exists_letter {basePrefix : List UInt8}
    (hmark : basePrefix ∈ [[0x30, 0x78], [0x30, 0x58]]) :
    ∃ x, (x = 0x78 ∨ x = 0x58) ∧ basePrefix = [0x30, x] := by
  simp only [List.mem_cons, List.not_mem_nil, or_false] at hmark
  rcases hmark with rfl | rfl
  · exact ⟨0x78, .inl rfl, rfl⟩
  · exact ⟨0x58, .inr rfl, rfl⟩

theorem not_isDigit_letter (hletter : c = 0x78 ∨ c = 0x58) :
    isDigit 16 c = false := by
  rcases hletter with rfl | rfl
  · decide
  · decide

/-! ## Strings with a reading -/

theorem dropWhile_spaces {spaces rest : List UInt8}
    (hspaces : ∀ c ∈ spaces, isSpace c = true)
    (hrest : ∀ c ∈ rest.head?, isSpace c = false) :
    (spaces ++ rest).dropWhile isSpace = rest := by
  rw [List.dropWhile_append_of_pos hspaces]
  cases rest with
  | nil => rfl
  | cons c rest => rw [List.dropWhile_cons_of_neg (by simpa using hrest c rfl)]

theorem skipSign_append {sign rest : List UInt8}
    (hsign : sign ∈ [[], [0x2B], [0x2D]])
    (hrest : ∀ c ∈ rest.head?, 0x30 ≤ c) :
    skipSign (sign ++ rest) = (sign == [0x2D], rest) := by
  simp only [List.mem_cons, List.not_mem_nil, or_false] at hsign
  rcases hsign with rfl | rfl | rfl
  · cases rest with
    | nil => rfl
    | cons c rest =>
        have hle := hrest c rfl
        have hminus : c ≠ 0x2D := by
          rintro rfl
          exact absurd hle (by decide)
        have hplus : c ≠ 0x2B := by
          rintro rfl
          exact absurd hle (by decide)
        simp [skipSign, hminus, hplus]
  · rfl
  · rfl

theorem skipPrefix_append {basePrefix digits : List UInt8}
    (hmark : basePrefix = [] ∨
      base = 16 ∧ basePrefix ∈ [[0x30, 0x78], [0x30, 0x58]])
    (hne : digits ≠ []) (hdigits : ∀ c ∈ digits, isDigit base c = true) :
    skipPrefix base (basePrefix ++ digits) = digits := by
  rcases hmark with rfl | ⟨rfl, hmark⟩
  · rw [List.nil_append]
    unfold skipPrefix
    split
    next x c rest =>
      apply if_neg
      rintro ⟨rfl, hx, -⟩
      have hdigit := hdigits x (by simp)
      rw [not_isDigit_letter hx] at hdigit
      cases hdigit
    next => rfl
  · obtain ⟨c, rest, rfl⟩ := List.exists_cons_of_ne_nil hne
    obtain ⟨x, hx, rfl⟩ := exists_letter hmark
    exact if_pos ⟨rfl, hx, hdigits c (by simp)⟩

namespace Reading

variable (reading : Reading base s)

theorem le_of_mem_head? (hbase : base ≤ 36)
    (hc : c ∈ (reading.basePrefix ++ reading.digits).head?) : 0x30 ≤ c := by
  rcases reading.basePrefix_mem with hnone | ⟨-, hsome⟩
  · rw [hnone, List.nil_append] at hc
    exact le_of_isDigit hbase
      (reading.isDigit_digits c (List.mem_of_mem_head? hc))
  · obtain ⟨x, -, hmark⟩ := exists_letter hsome
    rw [hmark] at hc
    cases hc
    exact UInt8.le_refl _

theorem not_isSpace_of_mem_head? (hbase : base ≤ 36)
    (hc : c ∈ (reading.sign ++ (reading.basePrefix ++
      reading.digits)).head?) : isSpace c = false := by
  cases hsign : reading.sign with
  | nil =>
      rw [hsign, List.nil_append] at hc
      exact not_isSpace_of_le (reading.le_of_mem_head? hbase hc)
  | cons first rest =>
      rw [hsign] at hc
      cases hc
      exact (lt_of_mem_sign reading.sign_mem (by simp [hsign])).2

end Reading

theorem strtoul_of_reading (hbase : base ≤ 36) (reading : Reading base s) :
    strtoul s base = (reading.value, []) := by
  have hskipped : skipPrefix base (reading.basePrefix ++ reading.digits) =
      reading.digits :=
    skipPrefix_append reading.basePrefix_mem reading.digits_ne
      reading.isDigit_digits
  have htake : reading.digits.takeWhile (isDigit base) = reading.digits :=
    List.takeWhile_eq_self_iff.mpr reading.isDigit_digits
  have hdrop : reading.digits.dropWhile (isDigit base) = [] :=
    List.dropWhile_eq_nil_iff.mpr reading.isDigit_digits
  have hspaces : s.dropWhile isSpace =
      reading.sign ++ (reading.basePrefix ++ reading.digits) :=
    (congrArg (List.dropWhile isSpace) reading.eq).trans
      (dropWhile_spaces reading.isSpace_spaces fun _ =>
        reading.not_isSpace_of_mem_head? hbase)
  rw [strtoul, hspaces, skipSign_append reading.sign_mem fun _ =>
    reading.le_of_mem_head? hbase]
  dsimp only
  rw [hskipped, htake, hdrop, if_neg reading.digits_ne, Reading.value]

theorem exists_sign (t : List UInt8) :
    ∃ sign ∈ [[], [0x2B], [0x2D]], t = sign ++ (skipSign t).2 := by
  unfold skipSign
  split
  next rest => exact ⟨[0x2D], by simp, rfl⟩
  next rest => exact ⟨[0x2B], by simp, rfl⟩
  next => exact ⟨[], by simp, rfl⟩

theorem exists_basePrefix (base : ℕ) (t : List UInt8) :
    ∃ basePrefix : List UInt8,
      (basePrefix = [] ∨
        base = 16 ∧ basePrefix ∈ [[0x30, 0x78], [0x30, 0x58]]) ∧
        t = basePrefix ++ skipPrefix base t := by
  unfold skipPrefix
  split
  next x c rest =>
    split_ifs with hmark
    · obtain ⟨hbase, hx, -⟩ := hmark
      refine ⟨[0x30, x], .inr ⟨hbase, ?_⟩, rfl⟩
      rcases hx with rfl | rfl <;> simp
    · exact ⟨[], .inl rfl, rfl⟩
  next => exact ⟨[], .inl rfl, rfl⟩

theorem exists_reading (hend : (strtoul s base).2 = []) (hne : s ≠ []) :
    Nonempty (Reading base s) := by
  obtain ⟨sign, hsign, hsigned⟩ := exists_sign (s.dropWhile isSpace)
  obtain ⟨basePrefix, hmark, hprefixed⟩ :=
    exists_basePrefix base (skipSign (s.dropWhile isSpace)).2
  have hspaces : s = s.takeWhile isSpace ++ s.dropWhile isSpace :=
    (List.takeWhile_append_dropWhile).symm
  have hdigits := List.takeWhile_append_dropWhile (p := isDigit base)
    (l := skipPrefix base (skipSign (s.dropWhile isSpace)).2)
  unfold strtoul at hend
  dsimp only at hend
  split_ifs at hend with hnone
  · exact absurd hend hne
  · dsimp only at hend
    rw [hend, List.append_nil] at hdigits
    exact ⟨{
      spaces := s.takeWhile isSpace
      sign := sign
      basePrefix := basePrefix
      digits := skipPrefix base (skipSign (s.dropWhile isSpace)).2
      eq := by rw [← hprefixed, ← hsigned, ← hspaces]
      isSpace_spaces := fun c hc => List.mem_takeWhile_imp hc
      sign_mem := hsign
      basePrefix_mem := hmark
      digits_ne := by rwa [hdigits] at hnone
      isDigit_digits := List.takeWhile_eq_self_iff.mp hdigits }⟩

theorem strtoul_end_iff (hbase : base ≤ 36) :
    s ≠ [] ∧ (strtoul s base).2 = [] ↔ Nonempty (Reading base s) := by
  constructor
  · rintro ⟨hne, hend⟩
    exact exists_reading hend hne
  · rintro ⟨reading⟩
    refine ⟨?_, by rw [strtoul_of_reading hbase reading]⟩
    rintro rfl
    have hnil := reading.eq.symm
    simp only [List.append_eq_nil_iff] at hnil
    exact reading.digits_ne hnil.2.2.2

/-! ## Digits only -/

def Reading.ofDigits (hne : s ≠ [])
    (hdigits : ∀ c ∈ s, isDigit base c = true) : Reading base s where
  spaces := []
  sign := []
  basePrefix := []
  digits := s
  eq := rfl
  isSpace_spaces := by simp
  sign_mem := by simp
  basePrefix_mem := .inl rfl
  digits_ne := hne
  isDigit_digits := hdigits

/-- There is no other reading of a string of digits. -/
theorem Reading.eq_ofDigits (hbase : base ≤ 36)
    (hdigits : ∀ c ∈ s, isDigit base c = true) (reading : Reading base s) :
    reading.spaces = [] ∧ reading.sign = [] ∧ reading.basePrefix = [] ∧
      reading.digits = s := by
  have hmem : ∀ c, c ∈ reading.spaces ∨ c ∈ reading.sign ∨
      c ∈ reading.basePrefix → c ∈ s := by
    intro c hc
    rw [reading.eq]
    simp only [List.mem_append]
    tauto
  have hspaces : reading.spaces = [] := by
    rw [List.eq_nil_iff_forall_not_mem]
    intro c hc
    have hle := le_of_isDigit hbase (hdigits c (hmem c (.inl hc)))
    have hspace := reading.isSpace_spaces c hc
    rw [not_isSpace_of_le hle] at hspace
    cases hspace
  have hsign : reading.sign = [] := by
    rw [List.eq_nil_iff_forall_not_mem]
    intro c hc
    have hle := le_of_isDigit hbase (hdigits c (hmem c (.inr (.inl hc))))
    exact UInt8.not_lt.mpr hle (lt_of_mem_sign reading.sign_mem hc).1
  have hmark : reading.basePrefix = [] := by
    rcases reading.basePrefix_mem with hnone | ⟨rfl, hsome⟩
    · exact hnone
    · obtain ⟨x, hx, hletter⟩ := exists_letter hsome
      have hdigit := hdigits x (hmem x (.inr (.inr (by simp [hletter]))))
      rw [not_isDigit_letter hx] at hdigit
      cases hdigit
  refine ⟨hspaces, hsign, hmark, ?_⟩
  have heq := reading.eq
  rw [hspaces, hsign, hmark] at heq
  exact heq.symm

end Strtoul
