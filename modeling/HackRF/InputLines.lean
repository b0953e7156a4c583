import HackRF.LineFraming
import Mathlib.Data.List.GetD

/-!
# Lines of the standard input

`getLine` reads a line with `fgets`, looks for its newline in front of the
terminator, and if it is not there skips the rest of the line.  A `NUL` in the
input makes it look in another place.

The buffer is described as memory from its first element on, and the standard
input as the bytes up to its end.
-/

namespace HackRF

open LineFraming

def newline : UInt8 := 0x0A

/-- `OK`, `NO_INPUT` and `TOO_LONG`. -/
inductive LineCode where
  | ok
  | noInput
  | tooLong
  deriving DecidableEq, Repr

/-- The code returned, the buffer, the elements of it which were read or
assigned, and what is left of the input. -/
structure LineReturn where
  code : LineCode
  buff : ℤ → UInt8
  touched : List ℤ
  stdin : List UInt8

/-- `sz` as the `int` which is passed to `fgets`. -/
def fgetsSize (sz : UInt64) : ℤ := sz.toUInt32.toInt32.toInt

/-- `fgets`: the bytes read and what is left, or `NULL`. -/
def fgets (n : ℤ) (stdin : List UInt8) : Option (List UInt8 × List UInt8) :=
  if n ≤ 0 then none
  else if 1 < n ∧ stdin = [] then none
  else
    let chunk := readThrough newline (n - 1).toNat stdin
    some (chunk, stdin.drop chunk.length)

/-- The bytes with a terminator, at the beginning of the buffer. -/
def placeString (text : List UInt8) (buff : ℤ → UInt8) : ℤ → UInt8 :=
  fun i =>
    if 0 ≤ i ∧ i < text.length then text.getD i.toNat 0
    else if i = text.length then 0
    else buff i

/-- `strlen`, from an element on. -/
def strlen (buff : ℤ → UInt8) : ℕ → ℕ → ℕ
  | 0, i => i
  | fuel + 1, i => if buff i = 0 then i else strlen buff fuel (i + 1)

def elements (count : ℕ) : List ℤ := (List.range count).map Nat.cast

/-- `getLine`, without its output.  With a length of zero, the index of the
last character is that of the element before the buffer. -/
def getLine (sz : UInt64) (buff : ℤ → UInt8) (stdin : List UInt8) :
    LineReturn :=
  match fgets (fgetsSize sz) stdin with
  | none => ⟨.noInput, buff, [], stdin⟩
  | some (chunk, stdin) =>
      let buff := placeString chunk buff
      let length := strlen buff sz.toNat 0
      let last : ℤ := length - 1
      let touched := elements (chunk.length + 1) ++ elements (length + 1) ++
        [last]
      if buff last ≠ newline then
        let (extra, stdin) := drain newline false stdin
        ⟨if extra then .tooLong else .ok, buff, touched, stdin⟩
      else
        ⟨.ok, Function.update buff last 0,
          touched ++ elements (length + 1) ++ [last], stdin⟩

/-! ## What is promised -/

/-- The buffer begins with the bytes and a terminator. -/
def HoldsString (buff : ℤ → UInt8) (text : List UInt8) : Prop :=
  (∀ k < text.length, buff k = text.getD k 0) ∧ buff text.length = 0

/-- The answer to a line, or to the end of the input. -/
def Reports (sz : UInt64) (ret : LineReturn) : Option (List UInt8) → Prop
  | none => ret.code = .noInput
  | some text =>
      if text.length < sz.toNat then
        ret.code = .ok ∧ HoldsString ret.buff text
      else
        ret.code = .tooLong ∧
          HoldsString ret.buff (text.take (sz.toNat - 1))

structure FramesLine (sz : UInt64) (stdin : List UInt8) (ret : LineReturn) :
    Prop where
  inside : ∀ i ∈ ret.touched, 0 ≤ i ∧ i < sz.toNat
  consumed : ret.stdin = afterLine newline stdin
  reports : Reports sz ret (lines newline stdin).head?

/-- The size does not change as an `int`, or at least does not cut the line,
and a `NUL` is not the first byte of a line, nor in one that is read with its
newline. -/
structure Readable (sz : UInt64) (stdin : List UInt8) : Prop where
  two_le : 2 ≤ fgetsSize sz
  fits : fgetsSize sz = sz.toNat ∨
    (line newline stdin).length < fgetsSize sz
  head : stdin.head? ≠ some 0
  noNul : 0 ∉ line newline stdin ∨
    fgetsSize sz ≤ (line newline stdin).length + 1 ∨ newline ∉ stdin

def Framed (sz : UInt64) (stdin : List UInt8) : Prop :=
  if stdin = [] then fgetsSize sz ≠ 1 else Readable sz stdin

variable {sz : UInt64} {buff : ℤ → UInt8} {stdin text : List UInt8}

/-! ## The buffer -/

/-- Sizes from 2 ^ 31 on are cut down to 32 bits, with a sign. -/
theorem fgetsSize_eq (sz : UInt64) :
    fgetsSize sz =
      if 2 * (sz.toNat % 2 ^ 32) < 2 ^ 32 then ((sz.toNat % 2 ^ 32 : ℕ) : ℤ)
      else ((sz.toNat % 2 ^ 32 : ℕ) : ℤ) - 2 ^ 32 := by
  have hint : fgetsSize sz = sz.toUInt32.toBitVec.toInt := rfl
  rw [hint, BitVec.toInt_eq_toNat_cond, UInt32.toNat_toBitVec,
    UInt64.toNat_toUInt32]
  norm_cast

theorem fgetsSize_le (sz : UInt64) : fgetsSize sz ≤ sz.toNat := by
  rw [fgetsSize_eq]
  split_ifs
  · omega
  · omega

theorem placeString_of_lt {k : ℕ} (hk : k < text.length) :
    placeString text buff k = text.getD k 0 := by
  rw [placeString, if_pos ⟨by omega, by omega⟩, Int.toNat_natCast]

theorem placeString_length : placeString text buff text.length = 0 := by
  rw [placeString, if_neg (by omega), if_pos rfl]

theorem placeString_newline (first : List UInt8) :
    placeString (first ++ [newline]) buff first.length = newline := by
  rw [placeString_of_lt (by simp)]
  simp

theorem holdsString_placeString : HoldsString (placeString text buff) text :=
  ⟨fun _ => placeString_of_lt, placeString_length⟩

/-- The length up to the first `NUL` of bytes in the buffer. -/
theorem strlen_eq {fuel i : ℕ} (hbytes : ∀ k < text.length,
      buff ((i + k : ℕ) : ℤ) = text.getD k 0)
    (hnul : buff ((i + text.length : ℕ) : ℤ) = 0)
    (hfuel : text.length < fuel) :
    strlen buff fuel i = i + (text.takeWhile (· ≠ 0)).length := by
  induction text generalizing fuel i with
  | nil =>
      obtain ⟨fuel, rfl⟩ := Nat.exists_eq_succ_of_ne_zero (Nat.ne_of_gt hfuel)
      rw [strlen, if_pos (by simpa using hnul)]
      rfl
  | cons c rest ih =>
      obtain ⟨fuel, rfl⟩ := Nat.exists_eq_succ_of_ne_zero
        (Nat.ne_of_gt (Nat.zero_lt_of_lt hfuel))
      have hfirst : buff i = c := by simpa using hbytes 0 (by simp)
      rw [strlen, hfirst]
      by_cases hc : c = 0
      · rw [if_pos hc, List.takeWhile_cons_of_neg (by simpa using hc)]
        rfl
      · rw [if_neg hc, List.takeWhile_cons_of_pos (by simpa using hc),
          List.length_cons]
        rw [@ih fuel (i + 1)]
        · omega
        · intro k hk
          have hbyte := hbytes (k + 1) (by simpa using hk)
          rw [Nat.add_right_comm, Nat.add_assoc]
          simpa using hbyte
        · rw [List.length_cons] at hnul
          rw [Nat.add_right_comm, Nat.add_assoc]
          exact hnul
        · exact Nat.lt_of_succ_lt_succ hfuel

theorem strlen_placeString {fuel : ℕ} (hfuel : text.length < fuel) :
    strlen (placeString text buff) fuel 0 =
      (text.takeWhile (· ≠ 0)).length := by
  rw [@strlen_eq _ text]
  · rw [Nat.zero_add]
  · intro k hk
    rw [Nat.zero_add]
    exact placeString_of_lt hk
  · rw [Nat.zero_add]
    exact placeString_length
  · exact hfuel

/-- The last byte in front of the first `NUL`. -/
theorem placeString_last (hne : text.takeWhile (· ≠ 0) ≠ []) :
    placeString text buff ((text.takeWhile (· ≠ 0)).length - 1) =
      (text.takeWhile (· ≠ 0)).getLast hne := by
  have hpos := List.length_pos_of_ne_nil hne
  have hle := (List.takeWhile_prefix (l := text) (· ≠ 0)).length_le
  have hindex : ((text.takeWhile (· ≠ 0)).length : ℤ) - 1 =
      ((text.takeWhile (· ≠ 0)).length - 1 : ℕ) := by omega
  have hlt : (text.takeWhile (· ≠ 0)).length - 1 < text.length := by omega
  rw [hindex, placeString_of_lt hlt, List.getD_eq_getElem _ _ hlt,
    List.getLast_eq_getElem]
  exact ((List.takeWhile_prefix _).getElem _).symm

/-! ## The three ways through the function -/

section Call

variable {chunk rest : List UInt8}

theorem mem_elements {count : ℕ} {i : ℤ} :
    i ∈ elements count ↔ 0 ≤ i ∧ i < count := by
  unfold elements
  rw [List.mem_map]
  constructor
  · rintro ⟨k, hk, rfl⟩
    have hlt := List.mem_range.mp hk
    omega
  · rintro ⟨hnonneg, hlt⟩
    exact ⟨i.toNat, List.mem_range.mpr (by omega), by omega⟩

/-- A string that is empty up to its first `NUL`. -/
theorem getLine_touches_before
    (hread : fgets (fgetsSize sz) stdin = some (chunk, rest))
    (hfuel : chunk.length < sz.toNat)
    (hempty : chunk.takeWhile (· ≠ 0) = []) :
    -1 ∈ (getLine sz buff stdin).touched := by
  unfold getLine
  rw [hread]
  dsimp only
  rw [strlen_placeString hfuel, hempty, drain_eq]
  dsimp only
  by_cases hlast :
      placeString chunk buff ((([] : List UInt8).length : ℤ) - 1) ≠ newline
  · rw [if_pos hlast]
    exact List.mem_append_right _ (List.mem_singleton.mpr rfl)
  · rw [if_neg hlast]
    exact List.mem_append_right _ (List.mem_singleton.mpr rfl)

theorem getLine_drains
    (hread : fgets (fgetsSize sz) stdin = some (chunk, rest))
    (hfuel : chunk.length < sz.toNat)
    (hne : chunk.takeWhile (· ≠ 0) ≠ [])
    (hnewline : newline ∉ chunk.takeWhile (· ≠ 0)) :
    getLine sz buff stdin = {
      code := if (line newline rest).isEmpty then .ok else .tooLong
      buff := placeString chunk buff
      touched := elements (chunk.length + 1) ++
        elements ((chunk.takeWhile (· ≠ 0)).length + 1) ++
          [((chunk.takeWhile (· ≠ 0)).length : ℤ) - 1]
      stdin := afterLine newline rest } := by
  unfold getLine
  rw [hread]
  dsimp only
  rw [strlen_placeString hfuel, placeString_last hne]
  have hlast : (chunk.takeWhile (· ≠ 0)).getLast hne ≠ newline := by
    intro hlast
    exact hnewline (hlast ▸ List.getLast_mem hne)
  rw [if_pos hlast, drain_eq]
  cases (line newline rest).isEmpty with
  | true => rfl
  | false => rfl

theorem getLine_strips {first : List UInt8}
    (hread : fgets (fgetsSize sz) stdin = some (first ++ [newline], rest))
    (hfuel : (first ++ [newline]).length < sz.toNat) (hnul : 0 ∉ first) :
    getLine sz buff stdin = {
      code := .ok
      buff := Function.update (placeString (first ++ [newline]) buff)
        first.length 0
      touched := elements (first.length + 2) ++ elements (first.length + 2) ++
        [(first.length : ℤ)] ++ elements (first.length + 2) ++
          [(first.length : ℤ)]
      stdin := rest } := by
  have hall : (first ++ [newline]).takeWhile (· ≠ 0) = first ++ [newline] := by
    rw [List.takeWhile_eq_self_iff]
    intro c hc
    rw [decide_eq_true_eq]
    rintro rfl
    rcases List.mem_append.mp hc with hc | hc
    · exact hnul hc
    · exact absurd (List.mem_singleton.mp hc) (by decide)
  have hindex : ((first ++ [newline]).length : ℤ) - 1 = first.length := by
    rw [List.length_append, List.length_singleton]
    omega
  unfold getLine
  rw [hread]
  dsimp only
  rw [strlen_placeString hfuel, hall, hindex, placeString_newline,
    if_neg (by simp), List.length_append, List.length_singleton]

end Call

/-! ## What is read -/

theorem fgets_of_two_le (hsize : 2 ≤ fgetsSize sz) (hne : stdin ≠ []) :
    fgets (fgetsSize sz) stdin =
      some (readThrough newline (fgetsSize sz - 1).toNat stdin,
        stdin.drop
          (readThrough newline (fgetsSize sz - 1).toNat stdin).length) := by
  rw [fgets, if_neg (by omega), if_neg fun h => hne h.2]

theorem readThrough_length_lt (hsize : 2 ≤ fgetsSize sz) :
    (readThrough newline (fgetsSize sz - 1).toNat stdin).length <
      sz.toNat := by
  have hroom := length_readThrough_le newline (fgetsSize sz - 1).toNat stdin
  have hle := fgetsSize_le sz
  omega

theorem FramesLine.of_touches_before {ret : LineReturn}
    (htouches : -1 ∈ ret.touched) : ¬ FramesLine sz stdin ret := by
  intro hframes
  exact absurd (hframes.inside (-1) htouches).1 (by decide)

theorem framesLine_nil_iff :
    FramesLine sz [] (getLine sz buff []) ↔ fgetsSize sz ≠ 1 := by
  constructor
  · intro hframes hone
    refine FramesLine.of_touches_before ?_ hframes
    apply @getLine_touches_before sz buff [] [] []
    · rw [hone]
      rfl
    · have hle := fgetsSize_le sz
      rw [List.length_nil]
      omega
    · rfl
  · intro hone
    have hnull : fgets (fgetsSize sz) [] = none := by
      unfold fgets
      split_ifs with hnonpos hmore
      · rfl
      · rfl
      · exact absurd ⟨by omega, rfl⟩ hmore
    have hcall : getLine sz buff [] = ⟨.noInput, buff, [], []⟩ := by
      rw [getLine, hnull]
    rw [hcall]
    exact { inside := by simp, consumed := rfl, reports := by simp [Reports] }

theorem not_framesLine_of_lt_two (hsize : fgetsSize sz < 2)
    (hne : stdin ≠ []) : ¬ FramesLine sz stdin (getLine sz buff stdin) := by
  intro hframes
  by_cases hone : fgetsSize sz = 1
  · refine FramesLine.of_touches_before ?_ hframes
    apply @getLine_touches_before sz buff stdin [] stdin
    · rw [hone]
      simp [fgets, readThrough]
    · have hle := fgetsSize_le sz
      rw [List.length_nil]
      omega
    · rfl
  · have hnull : fgets (fgetsSize sz) stdin = none := by
      rw [fgets, if_pos (by omega)]
    have hcode : (getLine sz buff stdin).code = .noInput := by
      rw [getLine, hnull]
    have hreports := hframes.reports
    rw [lines_of_ne_nil hne, List.head?_cons, Reports, hcode] at hreports
    split_ifs at hreports
    · cases hreports.1
    · cases hreports.1

theorem not_framesLine_of_head (hsize : 2 ≤ fgetsSize sz)
    (hhead : stdin.head? = some 0) :
    ¬ FramesLine sz stdin (getLine sz buff stdin) := by
  obtain ⟨rest, rfl⟩ : ∃ rest, stdin = 0 :: rest := by
    cases stdin with
    | nil => cases hhead
    | cons c rest =>
        cases hhead
        exact ⟨rest, rfl⟩
  have hread := fgets_of_two_le hsize (List.cons_ne_nil 0 rest)
  have hlength := @readThrough_length_lt sz (0 :: rest) hsize
  obtain ⟨others, hothers⟩ := @readThrough_cons _ _ newline
    (fgetsSize sz - 1).toNat (by omega) 0 rest
  apply FramesLine.of_touches_before
  exact getLine_touches_before hread hlength (by rw [hothers]; rfl)

/-! ## A line that is read with its newline -/

section Terminated

theorem fgets_of_terminated (hmem : newline ∈ stdin)
    (hshort : (line newline stdin).length + 1 < fgetsSize sz) :
    fgets (fgetsSize sz) stdin =
      some (line newline stdin ++ [newline], afterLine newline stdin) := by
  have hread := @fgets_of_two_le sz stdin (by omega) (List.ne_nil_of_mem hmem)
  have hthrough : readThrough newline (fgetsSize sz - 1).toNat stdin =
      line newline stdin ++ [newline] :=
    readThrough_of_fits hmem (by omega)
  rw [hread, hthrough, List.length_append, List.length_singleton,
    drop_line hmem]

theorem length_terminated_lt
    (hshort : (line newline stdin).length + 1 < fgetsSize sz) :
    (line newline stdin ++ [newline]).length < sz.toNat := by
  have hle := fgetsSize_le sz
  rw [List.length_append, List.length_singleton]
  omega

theorem reports_of_lt {ret : LineReturn} (hne : stdin ≠ [])
    (hlt : (line newline stdin).length < sz.toNat) :
    Reports sz ret (lines newline stdin).head? ↔
      ret.code = .ok ∧ HoldsString ret.buff (line newline stdin) := by
  rw [lines_of_ne_nil hne, List.head?_cons, Reports, if_pos hlt]

theorem framesLine_of_terminated (hmem : newline ∈ stdin)
    (hshort : (line newline stdin).length + 1 < fgetsSize sz)
    (hnul : 0 ∉ line newline stdin) :
    FramesLine sz stdin (getLine sz buff stdin) := by
  have hle := fgetsSize_le sz
  have hread := fgets_of_terminated hmem hshort
  have hfuel := length_terminated_lt hshort
  rw [getLine_strips hread hfuel hnul]
  constructor
  · intro i hi
    simp only [List.mem_append, mem_elements, List.mem_singleton] at hi
    push_cast at hi
    omega
  · rfl
  · rw [reports_of_lt (List.ne_nil_of_mem hmem) (by omega)]
    refine ⟨rfl, fun k hk => ?_, Function.update_self _ _ _⟩
    have hne : (k : ℤ) ≠ (line newline stdin).length := by omega
    have hplace : k < (line newline stdin ++ [newline]).length := by
      rw [List.length_append]
      omega
    dsimp only
    rw [Function.update_of_ne hne, placeString_of_lt hplace,
      List.getD_append _ _ _ _ hk]

theorem takeWhile_terminated (hnul : 0 ∈ line newline stdin) :
    (line newline stdin ++ [newline]).takeWhile (· ≠ 0) =
      (line newline stdin).takeWhile (· ≠ 0) := by
  rw [List.takeWhile_append, if_neg]
  intro hlength
  have hall := (List.takeWhile_prefix _).eq_of_length hlength
  have hzero := List.takeWhile_eq_self_iff.mp hall 0 hnul
  simp at hzero

/-- The search for the newline ends at the `NUL`, and the next line is
skipped. -/
theorem not_framesLine_of_nul (hmem : newline ∈ stdin)
    (hshort : (line newline stdin).length + 1 < fgetsSize sz)
    (hnul : 0 ∈ line newline stdin) :
    ¬ FramesLine sz stdin (getLine sz buff stdin) := by
  intro hframes
  have hle := fgetsSize_le sz
  have hread := fgets_of_terminated hmem hshort
  have hfuel := length_terminated_lt hshort
  have htext := takeWhile_terminated hnul
  by_cases hempty : (line newline stdin).takeWhile (· ≠ 0) = []
  · refine FramesLine.of_touches_before ?_ hframes
    exact getLine_touches_before hread hfuel (htext.trans hempty)
  · have hnewline : newline ∉ (line newline stdin).takeWhile (· ≠ 0) :=
      fun hin => delim_notMem_line ((List.takeWhile_prefix _).subset hin)
    have hcall := @getLine_drains sz buff stdin _ _ hread hfuel
      (htext ▸ hempty) (htext ▸ hnewline)
    have hreports := hframes.reports
    rw [reports_of_lt (List.ne_nil_of_mem hmem) (by omega), hcall] at hreports
    -- the newline is still in the buffer
    have hkept := @placeString_newline buff (line newline stdin)
    exact absurd (hkept.symm.trans hreports.2.2) (by decide)

end Terminated

/-! ## A line of which the newline is left -/

section Left

theorem fgets_of_left (hsize : 2 ≤ fgetsSize sz) (hne : stdin ≠ [])
    (hleft : fgetsSize sz ≤ (line newline stdin).length + 1 ∨
      newline ∉ stdin) :
    fgets (fgetsSize sz) stdin =
      some ((line newline stdin).take (fgetsSize sz - 1).toNat,
        stdin.drop
          ((line newline stdin).take (fgetsSize sz - 1).toNat).length) := by
  have hnot : ¬ (newline ∈ stdin ∧
      (line newline stdin).length < (fgetsSize sz - 1).toNat) := by
    rintro ⟨hmem, hlt⟩
    rcases hleft with hlong | hnone
    · omega
    · exact hnone hmem
  rw [fgets_of_two_le hsize hne, readThrough_of_not_fits hnot]

theorem takeWhile_ne_nil_of_left (hsize : 2 ≤ fgetsSize sz)
    (hne : stdin ≠ []) (hhead : stdin.head? ≠ some 0)
    (hleft : fgetsSize sz ≤ (line newline stdin).length + 1 ∨
      newline ∉ stdin) :
    ((line newline stdin).take (fgetsSize sz - 1).toNat).takeWhile (· ≠ 0) ≠
      [] := by
  have hread := fgets_of_left hsize hne hleft
  rw [fgets_of_two_le hsize hne, Option.some.injEq, Prod.mk.injEq] at hread
  obtain ⟨c, rest, rfl⟩ := List.exists_cons_of_ne_nil hne
  obtain ⟨others, hothers⟩ := @readThrough_cons _ _ newline
    (fgetsSize sz - 1).toNat (by omega) c rest
  have hc : c ≠ 0 := by simpa using hhead
  rw [← hread.1, hothers, List.takeWhile_cons_of_pos (by simpa using hc)]
  exact List.cons_ne_nil _ _

/-- What has been read is in the buffer, and the rest of the line is
skipped. -/
theorem getLine_of_left (hsize : 2 ≤ fgetsSize sz) (hne : stdin ≠ [])
    (hhead : stdin.head? ≠ some 0)
    (hleft : fgetsSize sz ≤ (line newline stdin).length + 1 ∨
      newline ∉ stdin) :
    ∃ touched, getLine sz buff stdin = {
        code := if (line newline stdin).length < fgetsSize sz then .ok
          else .tooLong
        buff := placeString
          ((line newline stdin).take (fgetsSize sz - 1).toNat) buff
        touched := touched
        stdin := afterLine newline stdin } ∧
      ∀ i ∈ touched, 0 ≤ i ∧ i < sz.toNat := by
  have hle := fgetsSize_le sz
  have hread := fgets_of_left hsize hne hleft
  have hchunk : ((line newline stdin).take (fgetsSize sz - 1).toNat).length =
      min (fgetsSize sz - 1).toNat (line newline stdin).length :=
    List.length_take
  have hfirst := takeWhile_ne_nil_of_left hsize hne hhead hleft
  have hsubset : (line newline stdin).take (fgetsSize sz - 1).toNat ⊆
      line newline stdin := List.take_subset _ _
  generalize (line newline stdin).take (fgetsSize sz - 1).toNat = chunk
    at hread hchunk hfirst hsubset ⊢
  have hnewline : newline ∉ chunk.takeWhile (· ≠ 0) := by
    intro hmem
    have hline := hsubset ((List.takeWhile_prefix _).subset hmem)
    exact delim_notMem_line hline
  obtain ⟨hline, hafter⟩ := @line_drop _ _ newline stdin chunk.length (by omega)
  have htext := (List.takeWhile_prefix (l := chunk) (· ≠ 0)).length_le
  have hpos := List.length_pos_of_ne_nil hfirst
  have hcall := @getLine_drains sz buff stdin _ _ hread (by omega) hfirst
    hnewline
  rw [hline, hafter] at hcall
  have hempty : ((line newline stdin).drop chunk.length).isEmpty = true ↔
      (line newline stdin).length < fgetsSize sz := by
    rw [List.isEmpty_iff, List.drop_eq_nil_iff]
    omega
  rw [if_congr hempty rfl rfl] at hcall
  refine ⟨_, hcall, ?_⟩
  intro i hi
  simp only [List.mem_append, mem_elements, List.mem_singleton] at hi
  push_cast at hi
  omega

theorem framesLine_of_left (hsize : 2 ≤ fgetsSize sz) (hne : stdin ≠ [])
    (hhead : stdin.head? ≠ some 0)
    (hleft : fgetsSize sz ≤ (line newline stdin).length + 1 ∨
      newline ∉ stdin)
    (hfits : fgetsSize sz = sz.toNat ∨
      (line newline stdin).length < fgetsSize sz) :
    FramesLine sz stdin (getLine sz buff stdin) := by
  have hle := fgetsSize_le sz
  obtain ⟨touched, hcall, hinside⟩ :=
    @getLine_of_left sz buff stdin hsize hne hhead hleft
  rw [hcall]
  refine ⟨hinside, rfl, ?_⟩
  by_cases hlt : (line newline stdin).length < fgetsSize sz
  · rw [reports_of_lt hne (by omega), if_pos hlt,
      List.take_of_length_le (by omega)]
    exact ⟨rfl, holdsString_placeString⟩
  · have hsame : fgetsSize sz = sz.toNat := hfits.resolve_right hlt
    have hroom : (fgetsSize sz - 1).toNat = sz.toNat - 1 := by omega
    rw [lines_of_ne_nil hne, List.head?_cons, Reports, if_neg (by omega),
      if_neg hlt, hroom]
    exact ⟨rfl, holdsString_placeString⟩

/-- A line is cut at a size that is not the one of the buffer. -/
theorem not_framesLine_of_cut (hsize : 2 ≤ fgetsSize sz) (hne : stdin ≠ [])
    (hhead : stdin.head? ≠ some 0) (hcut : fgetsSize sz ≠ sz.toNat)
    (hlong : fgetsSize sz ≤ (line newline stdin).length) :
    ¬ FramesLine sz stdin (getLine sz (fun _ => 1) stdin) := by
  intro hframes
  have hle := fgetsSize_le sz
  obtain ⟨touched, hcall, -⟩ := @getLine_of_left sz (fun _ => 1) stdin hsize hne
    hhead (.inl (by omega))
  rw [if_neg (by omega)] at hcall
  have hreports := hframes.reports
  rw [lines_of_ne_nil hne, List.head?_cons, Reports, hcall] at hreports
  split_ifs at hreports with hlt
  · cases hreports.1
  · -- the terminator is missing at the end of the buffer
    have hend := hreports.2.2
    dsimp only at hend
    rw [List.length_take, placeString, List.length_take, if_neg (by omega),
      if_neg (by omega)] at hend
    exact absurd hend (by decide)

end Left

/-! ## One call and a run of calls -/

theorem framesLine_iff_framed (sz : UInt64) (stdin : List UInt8) :
    (∀ buff, FramesLine sz stdin (getLine sz buff stdin)) ↔
      Framed sz stdin := by
  unfold Framed
  by_cases hempty : stdin = []
  · rw [if_pos hempty, hempty]
    exact ⟨fun hframes => framesLine_nil_iff.mp (hframes fun _ => 0),
      fun hone _ => framesLine_nil_iff.mpr hone⟩
  · rw [if_neg hempty]
    constructor
    · intro hframes
      have hsize : 2 ≤ fgetsSize sz := by
        by_contra hsmall
        exact not_framesLine_of_lt_two (by omega) hempty (hframes fun _ => 0)
      have hhead : stdin.head? ≠ some 0 := by
        intro hhead
        exact not_framesLine_of_head hsize hhead (hframes fun _ => 0)
      refine ⟨hsize, ?_, hhead, ?_⟩
      · by_contra hcut
        rw [not_or, not_lt] at hcut
        exact not_framesLine_of_cut hsize hempty hhead hcut.1 hcut.2
          (hframes fun _ => 1)
      · by_contra hnul
        simp only [not_or, not_not, not_le] at hnul
        obtain ⟨hnul, hshort, hmem⟩ := hnul
        exact not_framesLine_of_nul hmem hshort hnul (hframes fun _ => 0)
    · intro hreadable buff
      by_cases hleft : fgetsSize sz ≤ (line newline stdin).length + 1 ∨
          newline ∉ stdin
      · exact framesLine_of_left hreadable.two_le hempty hreadable.head hleft
          hreadable.fits
      · have hnul := hreadable.noNul.resolve_right hleft
        rw [not_or, not_not, not_le] at hleft
        exact framesLine_of_terminated hleft.2 hleft.1 hnul

structure LineCall where
  sz : UInt64
  buff : ℤ → UInt8

def stdinAfter (stdin : List UInt8) (calls : List LineCall) : List UInt8 :=
  calls.foldl (fun stdin call => (getLine call.sz call.buff stdin).stdin) stdin

def FramedAlong (stdin : List UInt8) (calls : List LineCall) : Prop :=
  ∀ before call, before ++ [call] <+: calls →
    Framed call.sz (stdinAfter stdin before)

/-- Each call answers to the line of its number, and leaves the lines that
follow. -/
structure FramesCall (stdin : List UInt8) (before : List LineCall)
    (call : LineCall) (ret : LineReturn) : Prop where
  inside : ∀ i ∈ ret.touched, 0 ≤ i ∧ i < call.sz.toNat
  reports : Reports call.sz ret (lines newline stdin)[before.length]?
  left : lines newline ret.stdin =
    (lines newline stdin).drop (before.length + 1)

theorem lines_stdinAfter {calls : List LineCall}
    (hframed : FramedAlong stdin calls) :
    lines newline (stdinAfter stdin calls) =
      (lines newline stdin).drop calls.length := by
  induction calls using List.reverseRecOn with
  | nil => rfl
  | append_singleton before call ih =>
      have hbefore : FramedAlong stdin before := fun earlier call' hearlier =>
        hframed earlier call' (hearlier.trans (List.prefix_append _ _))
      have hcall := hframed before call List.prefix_rfl
      have hframes := (framesLine_iff_framed _ _).mpr hcall call.buff
      rw [stdinAfter, List.foldl_append, List.foldl_cons, List.foldl_nil]
      change lines newline (getLine call.sz call.buff
        (stdinAfter stdin before)).stdin = _
      rw [hframes.consumed, lines_afterLine, ih hbefore, List.tail_drop,
        List.length_append, List.length_singleton]

/-- A call frames its line, for every buffer, exactly if the line is readable;
and calls on readable lines answer to one line after the other. -/
theorem getLine_frames (sz : UInt64) (stdin : List UInt8)
    (calls : List LineCall) :
    ((∀ buff, FramesLine sz stdin (getLine sz buff stdin)) ↔
      Framed sz stdin) ∧
    (FramedAlong stdin calls →
      ∀ before call, before ++ [call] <+: calls →
        FramesCall stdin before call
          (getLine call.sz call.buff (stdinAfter stdin before))) := by
  refine ⟨framesLine_iff_framed sz stdin, ?_⟩
  intro hframed before call hcalls
  have hframes := (framesLine_iff_framed _ _).mpr (hframed before call hcalls)
    call.buff
  have hbefore : FramedAlong stdin before := fun earlier call' hearlier =>
    hframed earlier call'
      (hearlier.trans ((List.prefix_append _ _).trans hcalls))
  have hlines := lines_stdinAfter hbefore
  constructor
  · exact hframes.inside
  · have hreports := hframes.reports
    rwa [hlines, List.head?_drop] at hreports
  · rw [hframes.consumed, lines_afterLine, hlines, List.tail_drop]

/-! ## Input without a `NUL` -/

theorem fgetsSize_of_lt (hlt : sz.toNat < 2 ^ 31) :
    fgetsSize sz = sz.toNat := by
  rw [fgetsSize_eq, Nat.mod_eq_of_lt (by omega), if_pos (by omega)]

theorem framed_of_no_nul (htwo : 2 ≤ sz.toNat) (hlt : sz.toNat < 2 ^ 31)
    (hnul : 0 ∉ stdin) : Framed sz stdin := by
  have hsize := fgetsSize_of_lt hlt
  unfold Framed
  split_ifs with hempty
  · omega
  · constructor
    · omega
    · exact .inl hsize
    · intro hhead
      exact hnul (List.mem_of_mem_head? hhead)
    · exact .inl fun hmem => hnul ((List.takeWhile_prefix _).subset hmem)

/-- A call takes bytes off the input and leaves the others as they are. -/
theorem getLine_stdin_suffix (sz : UInt64) (buff : ℤ → UInt8)
    (stdin : List UInt8) : (getLine sz buff stdin).stdin <:+ stdin := by
  unfold getLine
  cases hread : fgets (fgetsSize sz) stdin with
  | none => exact List.suffix_rfl
  | some read =>
      obtain ⟨chunk, rest⟩ := read
      have hrest : rest <:+ stdin := by
        unfold fgets at hread
        split_ifs at hread
        rw [Option.some.injEq, Prod.mk.injEq] at hread
        rw [← hread.2]
        exact List.drop_suffix _ _
      have hdrained : afterLine newline rest <:+ stdin :=
        (afterLine_suffix _ _).trans hrest
      dsimp only
      rw [drain_eq]
      split_ifs
      · exact hdrained
      · exact hdrained
      · exact hrest

theorem stdinAfter_suffix (stdin : List UInt8) (calls : List LineCall) :
    stdinAfter stdin calls <:+ stdin := by
  induction calls generalizing stdin with
  | nil => exact List.suffix_rfl
  | cons call rest ih =>
      exact (ih _).trans (getLine_stdin_suffix call.sz call.buff stdin)

theorem framedAlong_of_no_nul {calls : List LineCall} (hnul : 0 ∉ stdin)
    (htwo : ∀ call ∈ calls, 2 ≤ call.sz.toNat)
    (hlt : ∀ call ∈ calls, call.sz.toNat < 2 ^ 31) :
    FramedAlong stdin calls := by
  intro before call hcalls
  have hmem : call ∈ calls := hcalls.subset (by simp)
  apply framed_of_no_nul (htwo call hmem) (hlt call hmem)
  exact fun hin => hnul ((stdinAfter_suffix stdin before).subset hin)

/-- The second of two calls, on the lines `ab` and `abcde`. -/
theorem getLine_frames_second :
    let call : LineCall := ⟨4, fun _ => 0xFF⟩
    let stdin := [0x61, 0x62, 0x0A, 0x61, 0x62, 0x63, 0x64, 0x65, 0x0A]
    FramesCall stdin [call] call
      (getLine call.sz call.buff (stdinAfter stdin [call])) := by
  intro call stdin
  have hsmall : ∀ call' ∈ [call, call], call' = call := by simp
  apply (getLine_frames 4 stdin [call, call]).2
  · apply framedAlong_of_no_nul (by simp [stdin])
    · intro call' hmem
      rw [hsmall call' hmem]
      exact (by decide : 2 ≤ (4 : UInt64).toNat)
    · intro call' hmem
      rw [hsmall call' hmem]
      exact (by decide : (4 : UInt64).toNat < 2 ^ 31)
  · exact List.prefix_rfl

/-- A `NUL` in a line makes the call skip the next line, and a `NUL` at its
beginning has the element before the buffer read. -/
theorem getLine_frames_fails :
    let first := getLine 65 (fun _ => 0xFF)
      [0x61, 0x00, 0x62, 0x0A, 0x63, 0x64, 0x0A]
    let second := getLine 65 (fun _ => 0xFF) [0x00, 0x0A]
    first.code = .tooLong ∧ first.stdin = [] ∧
      ¬ FramesLine 65 [0x61, 0x00, 0x62, 0x0A, 0x63, 0x64, 0x0A] first ∧
      -1 ∈ second.touched ∧ ¬ FramesLine 65 [0x00, 0x0A] second := by
  intro first second
  have hstdin : first.stdin = [] := by decide
  have htouches : -1 ∈ second.touched := by decide
  refine ⟨by decide, hstdin, ?_, htouches,
    FramesLine.of_touches_before htouches⟩
  intro hframes
  have hconsumed := hframes.consumed
  rw [hstdin] at hconsumed
  exact absurd hconsumed (by decide)

end HackRF
