import HackRF.SweepBound
import HackRF.SweepCoverage

/-!
# The text output as a stream of rows

The usage text promises lines of the fields date, time, `hz_low`, `hz_high`,
`hz_bin_width`, `num_samples` and levels.  The two rows that a block prints
have this form.  But the loop which then fills the record of the block prints
its levels once more, without a newline, and they stay at the end of the
output until the next row is printed onto the same line.
-/

namespace HackRF.Sweep

variable {F : Type*}

/-! ## Fields and lines -/

def IsField (text : List Char) : Prop := ',' ∉ text ∧ '\n' ∉ text

/-- Fields as the format strings separate them. -/
def separated (fields : List (List Char)) : List Char :=
  [',', ' '].intercalate fields

def decimal (n : ℕ) : List Char := Nat.toDigits 10 n

/-- The formatting of the C library: `strftime` and `localtime` for the date
and the time of day of `tv_sec`, `%06ld` for the microseconds, `%.2f` for the
bin width and a level, and the bytes of a float for `fwrite`. -/
structure TextFormat (F : Type*) where
  date : ℤ → List Char
  time : ℤ → List Char
  usec : ℤ → List Char
  width : ℚ → List Char
  level : F → List Char
  bytes : F → List Char
  date_isField : ∀ sec, IsField (date sec)
  time_isField : ∀ sec, IsField (time sec)
  usec_isField : ∀ usec', IsField (usec usec')
  width_isField : ∀ binWidth, IsField (width binWidth)
  level_isField : ∀ power, IsField (level power)

namespace TextFormat

variable (format : TextFormat F)

/-- The fields in front of the levels. -/
def headFields (stamp : Timeval) (hzLow hzHigh : UInt64) (binWidth : ℚ)
    (fftSize : ℕ) : List (List Char) :=
  [format.date stamp.tvSec,
    format.time stamp.tvSec ++ '.' :: format.usec stamp.tvUsec,
    decimal hzLow.toNat, decimal hzHigh.toNat, format.width binWidth,
    decimal fftSize]

def chunk : Chunk F → List Char
  | .head stamp hzLow hzHigh binWidth fftSize =>
      separated (format.headFields stamp hzLow hzHigh binWidth fftSize)
  | .level power => [',', ' '] ++ format.level power
  | .newline => ['\n']
  | .float value => format.bytes value

/-- The text written to `fd`. -/
def text (output : List (Chunk F)) : List Char :=
  output.flatMap format.chunk

/-- A line with the fields of a row, in their order. -/
structure IsRow (settings : Settings F) (line : List Char) : Prop where
  columns : ∃ stamp hzLow hzHigh, ∃ levels : List F,
    levels.length = settings.fftSize.quarter ∧
      line = separated
        (format.headFields stamp hzLow hzHigh settings.fftSize.binWidth
          settings.fftSize.size ++ levels.map format.level)
  fields_length : (line.splitOn ',').length = 6 + settings.fftSize.quarter

/-- Two rows to a block, each a line of its own, and nothing else. -/
def WellFormed (settings : Settings F) (blocks : ℕ) (text : List Char) :
    Prop :=
  ∃ lines : List (List Char), lines.length = 2 * blocks ∧
    text = lines.flatMap (· ++ ['\n']) ∧
    ∀ line ∈ lines, '\n' ∉ line ∧ format.IsRow settings line

end TextFormat

theorem decimal_isField (n : ℕ) : IsField (decimal n) := by
  constructor
  · intro hcomma
    have hdigit := Nat.isDigit_of_mem_toDigits (by norm_num) le_rfl hcomma
    simp at hdigit
  · intro hnewline
    have hdigit := Nat.isDigit_of_mem_toDigits (by norm_num) le_rfl hnewline
    simp at hdigit

theorem separated_cons_cons (first second : List Char)
    (rest : List (List Char)) :
    separated (first :: second :: rest) =
      first ++ ',' :: ' ' :: separated (second :: rest) := by
  simp [separated, List.intercalate_cons_cons]

theorem separated_append_singleton (fields : List (List Char))
    (hfields : fields ≠ []) (last : List Char) :
    separated (fields ++ [last]) = separated fields ++ ([',', ' '] ++ last) := by
  induction fields with
  | nil => exact absurd rfl hfields
  | cons first rest ih =>
      cases rest with
      | nil =>
          rw [List.singleton_append, separated_cons_cons]
          simp [separated]
      | cons second rest =>
          rw [List.cons_append, List.cons_append, separated_cons_cons,
            separated_cons_cons, ← List.cons_append, ih (by simp)]
          simp

theorem splitOn_separated_length {fields : List (List Char)}
    (hfields : fields ≠ []) (hclean : ∀ field ∈ fields, IsField field) :
    ((separated fields).splitOn ',').length = fields.length := by
  induction fields with
  | nil => exact absurd rfl hfields
  | cons first rest ih =>
      obtain ⟨hfirst, hrest⟩ := List.forall_mem_cons.mp hclean
      cases rest with
      | nil =>
          simp [separated, List.splitOn_eq_singleton hfirst.1]
      | cons second rest =>
          rw [separated_cons_cons,
            List.splitOn_append_cons_self_of_not_mem hfirst.1,
            List.splitOn_cons_eq_if_modifyHead, if_neg (by decide),
            List.length_cons, List.length_modifyHead, ih (by simp) hrest]
          rfl

namespace TextFormat

variable (format : TextFormat F)

theorem isField_of_mem_headFields {stamp : Timeval} {hzLow hzHigh : UInt64}
    {binWidth : ℚ} {fftSize : ℕ} {field : List Char}
    (hfield : field ∈ format.headFields stamp hzLow hzHigh binWidth fftSize) :
    IsField field := by
  have htime : IsField (format.time stamp.tvSec ++
      '.' :: format.usec stamp.tvUsec) := by
    have hclock := format.time_isField stamp.tvSec
    have husec := format.usec_isField stamp.tvUsec
    constructor
    · simpa using ⟨hclock.1, husec.1⟩
    · simpa using ⟨hclock.2, husec.2⟩
  simp only [headFields, List.mem_cons, List.not_mem_nil, or_false] at hfield
  rcases hfield with rfl | rfl | rfl | rfl | rfl | rfl
  · exact format.date_isField _
  · exact htime
  · exact decimal_isField _
  · exact decimal_isField _
  · exact format.width_isField _
  · exact decimal_isField _

theorem text_append (first second : List (Chunk F)) :
    format.text (first ++ second) = format.text first ++ format.text second :=
  List.flatMap_append

theorem separated_levels (fields : List (List Char)) (hfields : fields ≠ [])
    (levels : List F) :
    separated fields ++ format.text (levels.map .level) =
      separated (fields ++ levels.map format.level) := by
  induction levels generalizing fields with
  | nil => simp [text]
  | cons level rest ih =>
      have hnext := ih (fields ++ [format.level level]) (by simp)
      rw [separated_append_singleton fields hfields, List.append_assoc,
        List.append_assoc] at hnext
      simpa [text, chunk] using hnext

theorem text_textRow (settings : Settings F) (state : State F)
    (hzLow hzHigh : UInt64) (offset : ℕ) :
    ∃ line, format.text (state.textRow settings hzLow hzHigh offset) =
        line ++ ['\n'] ∧ format.IsRow settings line := by
  have hlevels : (state.powers settings offset).length =
      settings.fftSize.quarter := by simp [State.powers]
  refine ⟨_, ?_, ⟨state.timeStamp, hzLow, hzHigh,
    state.powers settings offset, hlevels, rfl⟩, ?_⟩
  · rw [← separated_levels]
    · simp [text, State.textRow, chunk]
    · simp [headFields]
  · rw [splitOn_separated_length (by simp [headFields])]
    · rw [List.length_append, List.length_map, hlevels]
      rfl
    · intro field hfield
      rcases List.mem_append.mp hfield with hhead | hlevel
      · exact format.isField_of_mem_headFields hhead
      · obtain ⟨power, -, rfl⟩ := List.mem_map.mp hlevel
        exact format.level_isField power

end TextFormat

/-! ## What a block leaves behind -/

namespace State

variable {settings : Settings F} {state : State F}

def EndsWithLevel (state : State F) : Prop :=
  state.transformed = [] ∧ state.output = [] ∨
    state.transformed ≠ [] ∧
      ∃ earlier power, state.output = earlier ++ [Chunk.level power]

theorem powers_ne_nil (offset : ℕ) : state.powers settings offset ≠ [] := by
  have hpos := settings.fftSize.quarter_pos
  simp [powers]
  omega

theorem emitText_endsWithLevel (frequency : UInt64) :
    ∃ earlier power, (state.emitText settings frequency).output =
      earlier ++ [Chunk.level power] := by
  obtain ⟨rows, hrows⟩ : ∃ rows, (state.emitText settings frequency).output =
      rows ++ (state.powers settings (settings.fftSize.size * 5 / 8)).map
        .level := ⟨_, rfl⟩
  rw [hrows, ← List.dropLast_append_getLast (powers_ne_nil _), List.map_append,
    ← List.append_assoc]
  exact ⟨_, _, rfl⟩

theorem EndsWithLevel.blockStep (ops : FloatOps F)
    (htext : settings.TextMode) (hends : state.EndsWithLevel) (block : Block) :
    (state.blockStep ops settings block).EndsWithLevel := by
  obtain ⟨houtput, htransformed⟩ :=
    state.enterBlock_of_textMode ops htext block
  unfold State.blockStep
  dsimp only
  split_ifs
  · rw [processBlock_of_textMode ops htext]
    refine .inr ⟨?_, emitText_endsWithLevel _⟩
    change (state.enterBlock ops settings block).transformed ++ _ ≠ []
    simp
  · rw [EndsWithLevel, houtput, htransformed]
    exact hends

theorem rxCallbacks_endsWithLevel (ops : FloatOps F)
    (htext : settings.TextMode) (zero : F)
    (calls : List (Transfer × Timeval)) :
    ((State.initial zero).rxCallbacks ops settings calls).EndsWithLevel :=
  rxCallbacks_invariant ops settings EndsWithLevel
    (fun _ block hends => hends.blockStep ops htext block)
    (fun _ _ hends => hends) (.inl ⟨rfl, rfl⟩) calls

end State

/-! ## Which runs transform a block -/

namespace Progress

variable {settings : Settings F} {progress : Progress}

theorem foldl_of_no_start_of_not_started {blocks : List Block}
    (hstarted : progress.sweepStarted = false)
    (hblocks : ∀ block ∈ blocks, block.isStart settings = false) :
    blocks.foldl (step settings) progress = progress := by
  induction blocks with
  | nil => rfl
  | cons block rest ih =>
      obtain ⟨hblock, hrest⟩ := List.forall_mem_cons.mp hblocks
      rw [List.foldl_cons, step_of_not_started hstarted hblock]
      exact ih hrest

theorem runCalls_of_no_start {calls : List (Transfer × Timeval)}
    (hexit : progress.doExit = false) (hstarted : progress.sweepStarted = false)
    (hblocks : ∀ block ∈ stream calls, block.isStart settings = false) :
    progress.runCalls settings calls = progress := by
  induction calls with
  | nil => rfl
  | cons call rest ih =>
      have hstream : stream (call :: rest) =
          call.1.blocksFrom call.2 0 blocksPerTransfer ++ stream rest := rfl
      rw [hstream] at hblocks
      have hfold := foldl_of_no_start_of_not_started hstarted
        fun block hblock => hblocks block (List.mem_append_left _ hblock)
      have hblank := runBlocks_eq_foldl (hfold ▸ hexit)
      rw [runCalls, List.foldl_cons, hblank, hfold]
      exact ih fun block hblock => hblocks block (List.mem_append_right _ hblock)

/-- The first start-frequency block of a stream is transformed. -/
theorem runCalls_transformed_ne_nil {calls : List (Transfer × Timeval)}
    (hexit : progress.doExit = false) (hstarted : progress.sweepStarted = false)
    (hband : settings.startFrequency ≤ maxFrequency) {start : Block}
    (hmem : start ∈ stream calls) (hstart : start.isStart settings = true) :
    (progress.runCalls settings calls).transformed ≠ [] := by
  obtain ⟨first, hfirst⟩ : ∃ first,
      (stream calls).find? (Block.isStart settings) = some first :=
    Option.isSome_iff_exists.mp (List.find?_isSome.mpr ⟨start, hmem, hstart⟩)
  obtain ⟨hisStart, before, after, hstream, hbefore⟩ :=
    List.find?_eq_some_iff_append.mp hfirst
  have hfold : before.foldl (step settings) progress = progress :=
    foldl_of_no_start_of_not_started hstarted
      fun block hblock => by simpa using hbefore block hblock
  have hinBand : first.inBand = true := by
    simp only [Block.isStart, Bool.and_eq_true, beq_iff_eq] at hisStart
    simp only [Block.inBand, hisStart.1, hisStart.2, Bool.true_and,
      decide_eq_true_eq]
    exact hband
  have hstep : (progress.step settings first).doExit = false := by
    rw [step_doExit, enter_of_start hisStart]
    simp [hexit, hstarted]
  have hcut : stream calls = before ++ [first] ++ after := by
    rw [hstream, List.append_assoc, List.singleton_append]
  have hopen : ((before ++ [first]).foldl (step settings)
      progress).doExit = false := by
    rw [List.foldl_append, hfold]
    exact hstep
  have hbegins := foldl_transformed_prefix hcut hopen
  rw [List.foldl_append, hfold, List.foldl_cons, List.foldl_nil,
    step_of_start hstep hisStart] at hbegins
  intro hnone
  rw [hnone, List.prefix_nil] at hbegins
  simp [extend, hinBand] at hbegins

end Progress

theorem transformed_eq_nil_iff (ops : FloatOps F) {settings : Settings F}
    (hband : settings.startFrequency ≤ maxFrequency) (zero : F)
    (calls : List (Transfer × Timeval)) :
    ((State.initial zero).rxCallbacks ops settings calls).transformed = [] ↔
      settings.fd = false ∨
        ∀ block ∈ stream calls, block.isStart settings = false := by
  by_cases hfd : settings.fd = true
  · have hprogress := congrArg Progress.transformed
      (State.rxCallbacks_progress ops settings hfd (State.initial zero) calls)
    simp only [hfd, Bool.true_eq_false, false_or]
    constructor
    · intro hnone block hmem
      by_contra hstart
      exact Progress.runCalls_transformed_ne_nil rfl rfl hband hmem
        (Bool.eq_true_of_not_eq_false hstart) (hprogress.symm.trans hnone)
    · intro hblocks
      apply hprogress.trans
      rw [Progress.runCalls_of_no_start rfl rfl hblocks]
      rfl
  · have hclosed : settings.fd = false := Bool.eq_false_of_not_eq_true hfd
    rw [State.rxCallbacks_of_closed hclosed]
    exact ⟨fun _ => .inl hclosed, fun _ => rfl⟩

/-! ## The text of a run -/

namespace TextFormat

variable (format : TextFormat F)

theorem getLast?_text_level (earlier : List (Chunk F)) (power : F) :
    (format.text (earlier ++ [.level power])).getLast? ≠ some '\n' := by
  have htail : format.text [.level power] = [',', ' '] ++ format.level power := by
    simp [text, chunk]
  have hclean : '\n' ∉ [',', ' '] ++ format.level power := by
    simpa using (format.level_isField power).2
  rw [text_append, htail, List.getLast?_append_of_ne_nil _ (by simp)]
  intro hlast
  exact hclean (List.mem_of_getLast? hlast)

theorem WellFormed.getLast? {format : TextFormat F} {settings : Settings F}
    {blocks : ℕ} {text : List Char}
    (hwell : format.WellFormed settings blocks text) (hblocks : blocks ≠ 0) :
    text.getLast? = some '\n' := by
  obtain ⟨lines, hlength, rfl, -⟩ := hwell
  have hlines : lines ≠ [] := by
    rintro rfl
    simp at hlength
    omega
  rw [← List.dropLast_append_getLast hlines, List.flatMap_append]
  simp

theorem not_wellFormed_of_transformed (settings : Settings F)
    {state : State F} (hends : state.EndsWithLevel)
    (hsome : state.transformed ≠ []) :
    ¬ format.WellFormed settings state.transformed.length
      (format.text state.output) := by
  intro hwell
  have hlast := hwell.getLast? (by simpa using hsome)
  rcases hends with ⟨hnone, -⟩ | ⟨-, earlier, power, houtput⟩
  · exact hsome hnone
  · rw [houtput] at hlast
    exact format.getLast?_text_level earlier power hlast

theorem wellFormed_empty (settings : Settings F) :
    format.WellFormed settings 0 [] :=
  ⟨[], rfl, rfl, fun _ hline => absurd hline (List.not_mem_nil)⟩

end TextFormat

/-- The text of a run is a stream of rows exactly if the run processes no
block at all, since every block leaves levels behind its second row. -/
theorem text_wellFormed_iff (format : TextFormat F) (ops : FloatOps F)
    (settings : Settings F) (zero : F) (htext : settings.TextMode)
    (hband : settings.startFrequency ≤ maxFrequency)
    (calls : List (Transfer × Timeval)) :
    let final := (State.initial zero).rxCallbacks ops settings calls
    format.WellFormed settings final.transformed.length
        (format.text final.output) ↔
      settings.fd = false ∨
        ∀ block ∈ stream calls, block.isStart settings = false := by
  intro final
  rw [← transformed_eq_nil_iff ops hband zero calls]
  change _ ↔ final.transformed = []
  have hends : final.EndsWithLevel :=
    State.rxCallbacks_endsWithLevel ops htext zero calls
  constructor
  · intro hwell
    by_contra hsome
    exact format.not_wellFormed_of_transformed settings hends hsome hwell
  · intro hnone
    rcases hends with ⟨-, houtput⟩ | ⟨hsome, -⟩
    · rw [hnone, houtput]
      exact format.wellFormed_empty settings
    · exact absurd hnone hsome

/-- What the C library prints at the epoch for bins of 5 MHz without power. -/
def epochFormat : TextFormat Unit where
  date := fun _ => "1970-01-01".toList
  time := fun _ => "00:00:00".toList
  usec := fun _ => "000000".toList
  width := fun _ => "5000000.00".toList
  level := fun _ => "-inf".toList
  bytes := fun _ => []
  date_isField := fun _ => by simp [IsField]
  time_isField := fun _ => by simp [IsField]
  usec_isField := fun _ => by simp [IsField]
  width_isField := fun _ => by simp [IsField]
  level_isField := fun _ => by simp [IsField]

def textSettings : Settings Unit :=
  { oneShotSettings with ifftOutput := false, oneShot := false }

theorem text_wellFormed_blank :
    let final := (State.initial ()).rxCallbacks (.forgetful .wrapping)
      textSettings [(blankTransfer, ⟨0, 0⟩)]
    epochFormat.WellFormed textSettings final.transformed.length
      (epochFormat.text final.output) :=
  (text_wellFormed_iff epochFormat (.forgetful .wrapping) textSettings ()
    ⟨rfl, rfl⟩ (by decide) [(blankTransfer, ⟨0, 0⟩)]).mpr (.inr (by decide))

theorem text_not_wellFormed_start :
    let final := (State.initial ()).rxCallbacks (.forgetful .wrapping)
      textSettings [(startTransfer, ⟨0, 0⟩)]
    ¬ epochFormat.WellFormed textSettings final.transformed.length
      (epochFormat.text final.output) := by
  intro final
  have hends : final.EndsWithLevel :=
    State.rxCallbacks_endsWithLevel (.forgetful .wrapping) ⟨rfl, rfl⟩ () _
  apply epochFormat.not_wellFormed_of_transformed textSettings hends
  rw [ne_eq, transformed_eq_nil_iff (.forgetful .wrapping) (by decide)]
  decide

end HackRF.Sweep
