import HackRF.InputLines
import HackRF.SerialMatch

/-!
# Commands from the standard input

`parseUserInput` and `parseClientInput` each read one line.  The one returns
before it looks at a line which was read whole, so that only a line which was
too long, or the end of the input, gets to its commands.  The other compares
whole lines only, and its help command returns what its close commands return.
For a close command it also copies the buffer onto itself with `snprintf`, which
leaves the contents of the buffer undefined.

The prompts and messages are left out.
-/

namespace HackRF

open LineFraming

/-- The characters of a command. -/
def command (chars : List Char) : List UInt8 :=
  chars.map fun char => UInt8.ofNat char.toNat

/-- `strcmp` of the buffer with a string returns 0. -/
def strcmp (buff : ℤ → UInt8) (text : List UInt8) : Bool :=
  (strncmp buff 0 (text ++ [0])).1

def isCommand (buff : ℤ → UInt8) (commands : List (List UInt8)) : Bool :=
  commands.any (strcmp buff)

def exitCommands : List (List UInt8) :=
  [command ['e', 'x', 'i', 't'], command ['q', 'u', 'i', 't'],
    command ['q', 'u', 'i', 't']]

def helpCommands : List (List UInt8) :=
  [command ['h', 'e', 'l', 'p'], command ['h'], command ['?']]

def closeCommands : List (List UInt8) :=
  exitCommands ++ [command ['c', 'l', 'o', 's', 'e']]

/-- The value returned, whether `clientconnect("127.0.0.1", 5555)` is called,
the buffer and what is left of the input. -/
structure InputReturn where
  value : Bool
  connects : Bool
  buff : ℤ → UInt8
  stdin : List UInt8

/-! ## The two functions -/

/-- What `parseUserInput` does with a line that was not read whole: the value
returned and whether it connects. -/
def userCommand (buff : ℤ → UInt8) : Bool × Bool :=
  if (strncmp buff 0 (command ['c', 'o', 'n', 'n', 'e', 'c', 't'])).1 ||
      (strncmp buff 0 (command ['c'])).1 then (true, true)
  else if isCommand buff exitCommands then (false, false)
  else if isCommand buff helpCommands then (true, false)
  else (false, false)

/-- `parseUserInput`; `allocated` is what `malloc` leaves in the buffer. -/
def parseUserInput (allocated : ℤ → UInt8) (stdin : List UInt8) :
    InputReturn :=
  let read := getLine 65 allocated stdin
  if read.code = .ok then ⟨true, false, read.buff, read.stdin⟩
  else
    let (value, connects) := userCommand read.buff
    ⟨value, connects, read.buff, read.stdin⟩

/-- An `int` as the `size_t` it is converted to. -/
def sizeOfInt (buffsize : Int32) : UInt64 := buffsize.toInt64.toUInt64

/-- `parseClientInput`; `overlapped` is what `snprintf` leaves in the buffer
when it is to copy it onto itself, which is undefined. -/
def parseClientInput (commandOut : ℤ → UInt8) (buffsize : Int32)
    (overlapped : ℤ → UInt8) (stdin : List UInt8) : InputReturn :=
  let read := getLine (sizeOfInt buffsize) commandOut stdin
  if read.code = .noInput then ⟨false, false, read.buff, read.stdin⟩
  else if read.code = .tooLong then ⟨false, false, read.buff, read.stdin⟩
  else if isCommand read.buff closeCommands then
    ⟨true, false, overlapped, read.stdin⟩
  else ⟨isCommand read.buff helpCommands, false, read.buff, read.stdin⟩

/-! ## Comparing strings -/

section Strings

variable {buff : ℤ → UInt8} {text name : List UInt8}

theorem HoldsString.getD (hholds : HoldsString buff text) {k : ℕ}
    (hk : k ≤ text.length) : buff k = text.getD k 0 := by
  rcases Nat.lt_or_eq_of_le hk with hlt | rfl
  · exact hholds.1 k hlt
  · rw [hholds.2]
    simp

/-- Up to the length of the string, a comparison is one of prefixes. -/
theorem HoldsString.strncmp_iff (hholds : HoldsString buff text)
    (hlength : name.length ≤ text.length) :
    (strncmp buff 0 name).1 = true ↔ name <+: text := by
  have hread : (List.range name.length).map (fun i : ℕ => buff (0 + i)) =
      text.take name.length := by
    have hmap := @map_range_getD _ text 0 name.length (by omega) 0
    simp only [Nat.zero_add, List.drop_zero] at hmap
    rw [← hmap]
    apply List.map_congr_left
    intro i hi
    have hlt := List.mem_range.mp hi
    rw [Int.zero_add, hholds.1 i (by omega)]
  rw [strncmp_equal_iff, hread, List.prefix_iff_eq_take]
  exact eq_comm

theorem HoldsString.strcmp_iff (hholds : HoldsString buff text)
    (htext : 0 ∉ text) (hname : 0 ∉ name) :
    strcmp buff name = true ↔ text = name := by
  have hterminated : ∀ k ≤ name.length,
      (name ++ [0])[k]? = some (name.getD k 0) := by
    intro k hk
    rcases Nat.lt_or_eq_of_le hk with hlt | rfl
    · rw [List.getElem?_append_left hlt, List.getD_eq_getElem _ _ hlt,
        List.getElem?_eq_getElem hlt]
    · simp
  have hchars : strcmp buff name = true ↔
      ∀ k ≤ name.length, buff k = name.getD k 0 := by
    rw [strcmp, strncmp_equal_iff, List.ext_getElem?_iff]
    constructor
    · intro hsame k hk
      have hchar := hsame k
      rw [hterminated k hk, List.getElem?_map,
        List.getElem?_range (by simpa [Nat.lt_succ_iff] using hk)] at hchar
      simpa using hchar
    · intro hsame k
      by_cases hk : k ≤ name.length
      · rw [hterminated k hk, List.getElem?_map,
          List.getElem?_range (by simpa [Nat.lt_succ_iff] using hk), ← hsame k hk]
        simp
      · rw [List.getElem?_eq_none (by simp; omega),
          List.getElem?_eq_none (by simp; omega)]
  -- a string of another length ends at a character of the other one
  have hzero : ∀ {string : List UInt8} {k : ℕ}, 0 ∉ string →
      k < string.length → string.getD k 0 ≠ 0 := by
    intro string k hnul hk hchar
    rw [List.getD_eq_getElem _ _ hk] at hchar
    exact hnul (hchar ▸ List.getElem_mem hk)
  rw [hchars]
  constructor
  · intro hsame
    have hlength : text.length = name.length := by
      rcases Nat.lt_trichotomy text.length name.length with hlt | heq | hgt
      · have hend := hsame text.length hlt.le
        rw [hholds.2] at hend
        exact absurd hend.symm (hzero hname hlt)
      · exact heq
      · have hend := hsame name.length le_rfl
        rw [hholds.1 _ hgt, List.getD_eq_default _ _ le_rfl] at hend
        exact absurd hend (hzero htext hgt)
    apply List.ext_getElem hlength
    intro k hk hk'
    have hchar := hsame k hk'.le
    rwa [hholds.1 k hk, List.getD_eq_getElem _ _ hk,
      List.getD_eq_getElem _ _ hk'] at hchar
  · rintro rfl k hk
    exact hholds.getD hk

theorem HoldsString.isCommand_iff (hholds : HoldsString buff text)
    (htext : 0 ∉ text) {commands : List (List UInt8)}
    (hcommands : ∀ name ∈ commands, 0 ∉ name) :
    isCommand buff commands = true ↔ text ∈ commands := by
  rw [isCommand, List.any_eq_true]
  constructor
  · rintro ⟨name, hname, hsame⟩
    rw [(hholds.strcmp_iff htext (hcommands name hname)).mp hsame]
    exact hname
  · intro hmem
    exact ⟨text, hmem,
      (hholds.strcmp_iff htext (hcommands text hmem)).mpr rfl⟩

end Strings

/-! ## Runs of calls -/

/-- A call, with the buffer for its line. -/
inductive InputCall where
  | user (allocated : ℤ → UInt8)
  | client (commandOut : ℤ → UInt8) (buffsize : Int32)
      (overlapped : ℤ → UInt8)

namespace InputCall

def run (stdin : List UInt8) : InputCall → InputReturn
  | .user allocated => parseUserInput allocated stdin
  | .client commandOut buffsize overlapped =>
      parseClientInput commandOut buffsize overlapped stdin

/-- The input left by calls one after the other. -/
def inputAfter (stdin : List UInt8) (calls : List InputCall) : List UInt8 :=
  calls.foldl (fun stdin call => (call.run stdin).stdin) stdin

/-- The call of `getLine` which the call makes. -/
def lineCall : InputCall → LineCall
  | .user allocated => ⟨65, allocated⟩
  | .client commandOut buffsize _ => ⟨sizeOfInt buffsize, commandOut⟩

/-- There is room for at least one character. -/
def HasRoom : InputCall → Prop
  | .user _ => True
  | .client _ buffsize _ => 2 ≤ buffsize.toInt

/-- What a call answers to a line, or to the end of the input.  A close command
does not stay in the buffer. -/
def Answers (ret : InputReturn) : InputCall → Option (List UInt8) → Prop
  | .user _, some text =>
      if text.length < 65 then ret.value = true ∧ ret.connects = false
      else ret.value = ret.connects ∧
        (ret.connects = true ↔ command ['c'] <+: text)
  | .user allocated, none => (ret.value, ret.connects) = userCommand allocated
  | .client _ buffsize _, some text =>
      (ret.value = true ↔ text.length < buffsize.toInt ∧
        text ∈ closeCommands ++ helpCommands) ∧
      (¬ (text.length < buffsize.toInt ∧ text ∈ closeCommands) →
        HoldsString ret.buff (text.take (buffsize.toInt.toNat - 1)))
  | .client _ _ _, none => ret.value = false

theorem run_stdin (call : InputCall) (stdin : List UInt8) :
    (call.run stdin).stdin =
      (getLine call.lineCall.sz call.lineCall.buff stdin).stdin := by
  cases call with
  | user allocated =>
      unfold run parseUserInput
      dsimp only
      split_ifs
      · rfl
      · rfl
  | client commandOut buffsize overlapped =>
      unfold run parseClientInput
      dsimp only
      split_ifs
      · rfl
      · rfl
      · rfl
      · rfl

theorem inputAfter_eq_stdinAfter (stdin : List UInt8)
    (calls : List InputCall) :
    inputAfter stdin calls = stdinAfter stdin (calls.map lineCall) := by
  unfold inputAfter stdinAfter
  rw [List.foldl_map]
  simp only [run_stdin]

end InputCall

theorem toNat_sizeOfInt {buffsize : Int32} (hnonneg : 0 ≤ buffsize.toInt) :
    ((sizeOfInt buffsize).toNat : ℤ) = buffsize.toInt := by
  have hwide : buffsize.toInt64.toInt = buffsize.toInt :=
    Int32.toInt_toInt64 buffsize
  have hcond : buffsize.toInt64.toInt =
      buffsize.toInt64.toUInt64.toBitVec.toInt := rfl
  rw [BitVec.toInt_eq_toNat_cond, hwide] at hcond
  rw [sizeOfInt, ← UInt64.toNat_toBitVec]
  split_ifs at hcond <;> omega

theorem InputCall.HasRoom.size {call : InputCall} (hroom : call.HasRoom) :
    2 ≤ call.lineCall.sz.toNat ∧ call.lineCall.sz.toNat < 2 ^ 31 := by
  cases call with
  | user allocated =>
      exact ⟨(by decide : 2 ≤ (65 : UInt64).toNat),
        (by decide : (65 : UInt64).toNat < 2 ^ 31)⟩
  | client commandOut buffsize overlapped =>
      have htwo : 2 ≤ buffsize.toInt := hroom
      have hlt := Int32.toInt_lt buffsize
      have hsize := @toNat_sizeOfInt buffsize (by omega)
      unfold InputCall.lineCall
      dsimp only
      omega

/-! ## The answer to one line -/

section Answer

variable {stdin text : List UInt8}

theorem getLine_nil {sz : UInt64} (hsize : 2 ≤ fgetsSize sz)
    (buff : ℤ → UInt8) : getLine sz buff [] = ⟨.noInput, buff, [], []⟩ := by
  have hnull : fgets (fgetsSize sz) [] = none := by
    rw [fgets, if_neg (by omega), if_pos ⟨by omega, rfl⟩]
  rw [getLine, hnull]

/-- The line too long to be read whole leaves its first 64 characters. -/
theorem userCommand_of_long {buff : ℤ → UInt8} (htext : 0 ∉ text)
    (hlong : 65 ≤ text.length) (hholds : HoldsString buff (text.take 64)) :
    (userCommand buff).1 = (userCommand buff).2 ∧
      ((userCommand buff).2 = true ↔ command ['c'] <+: text) := by
  have hlength : (text.take 64).length = 64 := by
    rw [List.length_take]
    omega
  have hkept : 0 ∉ text.take 64 := fun hmem => htext (List.mem_of_mem_take hmem)
  have hfirst : (strncmp buff 0 (command ['c'])).1 = true ↔
      command ['c'] <+: text := by
    rw [hholds.strncmp_iff (hlength.symm ▸ by decide), List.prefix_take_iff]
    exact and_iff_left (by decide)
  have hconnect : (strncmp buff 0
        (command ['c', 'o', 'n', 'n', 'e', 'c', 't'])).1 = true →
      command ['c'] <+: text := by
    rw [hholds.strncmp_iff (hlength.symm ▸ by decide)]
    intro hstarts
    have hshort : command ['c'] <+:
        command ['c', 'o', 'n', 'n', 'e', 'c', 't'] := by decide
    exact hshort.trans (hstarts.trans (List.take_prefix _ _))
  -- no command has 64 characters
  have hother : ∀ commands : List (List UInt8),
      (∀ name ∈ commands, 0 ∉ name ∧ name.length ≠ 64) →
        isCommand buff commands = false := by
    intro commands hcommands
    rw [← Bool.not_eq_true,
      hholds.isCommand_iff hkept fun name hname => (hcommands name hname).1]
    intro hmem
    exact (hcommands _ hmem).2 hlength
  unfold userCommand
  rw [hother exitCommands (by decide), hother helpCommands (by decide)]
  by_cases hc : command ['c'] <+: text
  · simp [hfirst.mpr hc, hc]
  · have hc' : (strncmp buff 0 (command ['c'])).1 = false := by
      rw [← Bool.not_eq_true, hfirst]
      exact hc
    have hconnect' : (strncmp buff 0
        (command ['c', 'o', 'n', 'n', 'e', 'c', 't'])).1 = false := by
      rw [← Bool.not_eq_true]
      exact mt hconnect hc
    simp [hc', hconnect', hc]

theorem parseUserInput_answers (allocated : ℤ → UInt8)
    (hne : stdin ≠ []) (htext : 0 ∉ line newline stdin)
    (hframes : FramesLine 65 stdin (getLine 65 allocated stdin)) :
    InputCall.Answers (parseUserInput allocated stdin) (.user allocated)
      (some (line newline stdin)) := by
  have hsize : (65 : UInt64).toNat = 65 := rfl
  have hreports := hframes.reports
  rw [lines_of_ne_nil hne, List.head?_cons, Reports, hsize] at hreports
  unfold InputCall.Answers parseUserInput
  dsimp only
  split_ifs at hreports ⊢ with hlt hcode hcode
  · exact ⟨rfl, rfl⟩
  · exact absurd hreports.1 hcode
  · rw [hreports.1] at hcode
    cases hcode
  · exact userCommand_of_long htext (by omega) hreports.2

theorem parseClientInput_answers (commandOut overlapped : ℤ → UInt8)
    {buffsize : Int32} (hroom : 2 ≤ buffsize.toInt) (hne : stdin ≠ [])
    (htext : 0 ∉ line newline stdin)
    (hframes : FramesLine (sizeOfInt buffsize) stdin
      (getLine (sizeOfInt buffsize) commandOut stdin)) :
    InputCall.Answers (parseClientInput commandOut buffsize overlapped stdin)
      (.client commandOut buffsize overlapped) (some (line newline stdin)) := by
  have hsize := @toNat_sizeOfInt buffsize (by omega)
  have hkeep : (sizeOfInt buffsize).toNat - 1 = buffsize.toInt.toNat - 1 := by
    omega
  have hreports := hframes.reports
  rw [lines_of_ne_nil hne, List.head?_cons, Reports, hkeep] at hreports
  unfold InputCall.Answers parseClientInput
  dsimp only
  split_ifs at hreports with hlt
  · obtain ⟨hcode, hholds⟩ := hreports
    have hclose := hholds.isCommand_iff htext
      (show ∀ name ∈ closeCommands, 0 ∉ name by decide)
    have hhelp := hholds.isCommand_iff htext
      (show ∀ name ∈ helpCommands, 0 ∉ name by decide)
    have hfits : ((line newline stdin).length : ℤ) < buffsize.toInt := by omega
    rw [hcode, if_neg (by decide), if_neg (by decide),
      List.take_of_length_le (by omega), List.mem_append, ← hclose, ← hhelp]
    cases isCommand (getLine (sizeOfInt buffsize) commandOut stdin).buff
      closeCommands with
    | true => simp [hfits]
    | false => simp [hfits, hholds]
  · obtain ⟨hcode, hholds⟩ := hreports
    rw [hcode, if_neg (by decide), if_pos rfl]
    refine ⟨?_, fun _ => hholds⟩
    simp only [Bool.false_eq_true, false_iff, not_and]
    intro hfits
    omega

theorem InputCall.HasRoom.answers_head {call : InputCall}
    (hroom : call.HasRoom)
    (hnul : 0 ∉ stdin) :
    call.Answers (call.run stdin) (lines newline stdin).head? := by
  obtain ⟨htwo, hlt⟩ := hroom.size
  by_cases hempty : stdin = []
  · have hsize : 2 ≤ fgetsSize call.lineCall.sz := by
      rw [fgetsSize_of_lt hlt]
      exact_mod_cast htwo
    have hline := getLine_nil hsize call.lineCall.buff
    rw [hempty, lines_nil, List.head?_nil]
    cases call with
    | user allocated =>
        change getLine 65 allocated [] = _ at hline
        simp [Answers, run, parseUserInput, hline, lineCall]
    | client commandOut buffsize overlapped =>
        change getLine (sizeOfInt buffsize) commandOut [] = _ at hline
        simp [Answers, run, parseClientInput, hline]
  · have hframes := (framesLine_iff_framed _ _).mpr
      (framed_of_no_nul htwo hlt hnul) call.lineCall.buff
    have htext : 0 ∉ line newline stdin := fun hmem =>
      hnul ((List.takeWhile_prefix _).subset hmem)
    rw [lines_of_ne_nil hempty, List.head?_cons]
    cases call with
    | user allocated =>
        exact parseUserInput_answers allocated hempty htext hframes
    | client commandOut buffsize overlapped =>
        exact parseClientInput_answers commandOut overlapped hroom hempty htext
          hframes

end Answer

/-- In every run of calls on an input without a `NUL`, each call answers to the
line of its number.  A line read whole makes `parseUserInput` return true
without a look at its command, and `parseClientInput` return true if it is one
of its commands, and it stays in the buffer unless it is a close command. -/
theorem inputCalls_answer (stdin : List UInt8) (calls : List InputCall)
    (hnul : 0 ∉ stdin) (hroom : ∀ call ∈ calls, call.HasRoom) :
    ∀ before call, before ++ [call] <+: calls →
      call.Answers (call.run (InputCall.inputAfter stdin before))
        (lines newline stdin)[before.length]? := by
  intro before call hcalls
  have hmem : ∀ earlier ∈ before ++ [call], earlier.HasRoom :=
    fun earlier hearlier => hroom earlier (hcalls.subset hearlier)
  have hframed : FramedAlong stdin (before.map InputCall.lineCall) := by
    apply framedAlong_of_no_nul hnul
    · intro lineCall hline
      obtain ⟨earlier, hearlier, rfl⟩ := List.mem_map.mp hline
      exact (hmem earlier (List.mem_append_left _ hearlier)).size.1
    · intro lineCall hline
      obtain ⟨earlier, hearlier, rfl⟩ := List.mem_map.mp hline
      exact (hmem earlier (List.mem_append_left _ hearlier)).size.2
  have hleft := lines_stdinAfter hframed
  rw [List.length_map, ← InputCall.inputAfter_eq_stdinAfter] at hleft
  have hclean : 0 ∉ InputCall.inputAfter stdin before := by
    rw [InputCall.inputAfter_eq_stdinAfter]
    exact fun hzero => hnul ((stdinAfter_suffix _ _).subset hzero)
  have hanswers := (hmem call (by simp)).answers_head hclean
  rwa [hleft, List.head?_drop] at hanswers

/-- The same command twice: the user's `quit` returns true, as any line does,
and the client's one is obeyed. -/
theorem inputCalls_answer_quit :
    let quit := command ['q', 'u', 'i', 't']
    let user := InputCall.user fun _ => 0xFF
    let client := InputCall.client (fun _ => 0xFF) 50 fun _ => 0
    let stdin := quit ++ [newline] ++ quit ++ [newline]
    (user.run stdin).value = true ∧
      (client.run (InputCall.inputAfter stdin [user])).value = true := by
  intro quit user client stdin
  have hanswers := inputCalls_answer stdin [user, client] (by decide)
    (by
      intro call hmem
      rcases List.mem_pair.mp hmem with rfl | rfl
      · trivial
      · exact (by decide : (2 : ℤ) ≤ (50 : Int32).toInt))
  have hlines : lines newline stdin = [quit, quit] := by
    simp [stdin, quit, lines, line, afterLine, command, newline]
  rw [hlines] at hanswers
  constructor
  · have hfirst := hanswers [] user ⟨[client], rfl⟩
    have hshort : quit.length < 65 := by decide
    simp only [user, List.length_nil, List.getElem?_cons_zero,
      InputCall.Answers, if_pos hshort] at hfirst
    exact hfirst.1
  · have hsecond := hanswers [user] client List.prefix_rfl
    exact hsecond.1.mpr (by decide)

end HackRF
