import HackRF.RxStream

/-!
# What a run transforms, counts and stamps

The progress of a run over the blocks it has seen.  Between two
start-frequency blocks nothing but the list of transformed blocks changes; a
start-frequency block completes the sweep under way and stamps the next one.
-/

namespace HackRF.Sweep

variable {F : Type*} (settings : Settings F)

def Settings.Unbounded (settings : Settings F) : Prop :=
  settings.oneShot = false ∧ settings.finiteMode = false

/-- The blocks a run transforms: those in band, from the first
start-frequency block on. -/
def transformable (blocks : List Block) : List Block :=
  (blocks.dropWhile fun block => !block.isStart settings).filter Block.inBand

/-- What is transformed, without the timestamp. -/
def Transformed.source (entry : Transformed) :
    UInt64 × List (UInt8 × UInt8) :=
  (entry.frequency, entry.samples)

def Block.source (block : Block) : UInt64 × List (UInt8 × UInt8) :=
  (block.frequency, block.samples settings)

@[simp] theorem Block.entry_source (timeStamp : Timeval) (block : Block) :
    (block.entry settings timeStamp).source = block.source settings := rfl

theorem Settings.Unbounded.endsAt {settings : Settings F}
    (hunbounded : settings.Unbounded) (count : UInt64) :
    settings.endsAt count = false := by
  simp [Settings.endsAt, hunbounded.1, hunbounded.2]

namespace Progress

variable {settings} {progress : Progress} {block : Block}

/-! ## Once set, `do_exit` stays -/

theorem step_doExit :
    (progress.step settings block).doExit =
      (progress.enter settings block).doExit := by
  unfold step
  dsimp only
  split_ifs <;> rfl

theorem step_doExit_of_true (hexit : progress.doExit = true) :
    (progress.step settings block).doExit = true := by
  rw [step_doExit]
  unfold enter
  cases block.isStart settings with
  | false => exact hexit
  | true => simp [hexit]

theorem foldl_doExit_of_true {blocks : List Block}
    (hexit : progress.doExit = true) :
    (blocks.foldl (step settings) progress).doExit = true := by
  induction blocks generalizing progress with
  | nil => exact hexit
  | cons block rest ih => exact ih (step_doExit_of_true hexit)

theorem doExit_of_foldl {blocks : List Block}
    (hexit : (blocks.foldl (step settings) progress).doExit = false) :
    progress.doExit = false := by
  by_contra hset
  have hend : (blocks.foldl (step settings) progress).doExit = true :=
    foldl_doExit_of_true (Bool.eq_true_of_not_eq_false hset)
  simp [hend] at hexit

/-! ## One block -/

def extend (settings : Settings F) (blocks : List Block) (progress : Progress) :
    Progress :=
  { progress with
    transformed := progress.transformed ++
      (blocks.filter Block.inBand).map
        (Block.entry settings progress.timeStamp) }

theorem extend_extend (first second : List Block) :
    (progress.extend settings first).extend settings second =
      progress.extend settings (first ++ second) := by
  simp [extend, List.append_assoc]

theorem extend_source (blocks : List Block) :
    (progress.extend settings blocks).transformed.map Transformed.source =
      progress.transformed.map Transformed.source ++
        (blocks.filter Block.inBand).map (Block.source settings) := by
  simp [extend]

@[simp] theorem enter_transformed :
    (progress.enter settings block).transformed = progress.transformed := by
  unfold enter
  cases block.isStart settings <;> rfl

theorem enter_of_not_start (hblock : block.isStart settings = false) :
    progress.enter settings block = progress := by
  simp [enter, hblock]

theorem enter_of_start (hstart : block.isStart settings = true) :
    progress.enter settings block = {
      sweepCount :=
        if progress.sweepStarted then progress.sweepCount + 1
        else progress.sweepCount
      doExit := progress.doExit ||
        progress.sweepStarted && settings.endsAt (progress.sweepCount + 1)
      sweepStarted := true
      timeStamp := block.timeStamp settings
      transformed := progress.transformed } := by
  simp [enter, hstart]

theorem enter_sweepStarted :
    (progress.enter settings block).sweepStarted =
      (progress.sweepStarted || block.isStart settings) := by
  unfold enter
  cases hstart : block.isStart settings <;> simp

theorem step_eq_extend
    (hexit : (progress.step settings block).doExit = false)
    (hstarted : (progress.enter settings block).sweepStarted = true) :
    progress.step settings block =
      (progress.enter settings block).extend settings [block] := by
  rw [step_doExit] at hexit
  unfold step
  dsimp only
  generalize progress.enter settings block = entered at *
  by_cases hband : block.inBand = true
  · rw [if_pos ⟨hexit, hstarted, hband⟩]
    simp [extend, hband]
  · rw [if_neg fun hall => hband hall.2.2]
    simp [extend, hband]

theorem step_sweepStarted :
    (progress.step settings block).sweepStarted =
      (progress.sweepStarted || block.isStart settings) := by
  rw [← enter_sweepStarted]
  unfold step
  dsimp only
  split_ifs <;> rfl

theorem step_of_started (hexit : (progress.step settings block).doExit = false)
    (hstarted : progress.sweepStarted = true) :
    progress.step settings block =
      (progress.enter settings block).extend settings [block] :=
  step_eq_extend hexit (by rw [enter_sweepStarted, hstarted, Bool.true_or])

theorem step_of_start (hexit : (progress.step settings block).doExit = false)
    (hstart : block.isStart settings = true) :
    progress.step settings block =
      (progress.enter settings block).extend settings [block] :=
  step_eq_extend hexit (by rw [enter_sweepStarted, hstart, Bool.or_true])

theorem step_of_not_started (hstarted : progress.sweepStarted = false)
    (hblock : block.isStart settings = false) :
    progress.step settings block = progress := by
  unfold step
  rw [enter_of_not_start hblock]
  simp [hstarted]

/-! ## The blocks of a transfer -/

theorem runBlocks_append {blocks : List Block} (rest : List Block)
    (hexit : (blocks.foldl (step settings) progress).doExit = false) :
    progress.runBlocks settings (blocks ++ rest) =
      (blocks.foldl (step settings) progress).runBlocks settings rest := by
  induction blocks generalizing progress with
  | nil => rfl
  | cons block blocks ih =>
      rw [List.foldl_cons] at hexit
      have hstep := doExit_of_foldl hexit
      rw [step_doExit] at hstep
      rw [List.cons_append, runBlocks, hstep, Bool.and_false, List.foldl_cons]
      exact ih hexit

theorem runBlocks_eq_foldl {blocks : List Block}
    (hexit : (blocks.foldl (step settings) progress).doExit = false) :
    progress.runBlocks settings blocks =
      blocks.foldl (step settings) progress := by
  have happend := runBlocks_append [] hexit
  rwa [List.append_nil] at happend

/-! ## The list of transformed blocks only grows -/

theorem step_transformed :
    progress.transformed <+: (progress.step settings block).transformed := by
  unfold step
  dsimp only
  rw [enter_transformed]
  split_ifs
  · exact List.prefix_append _ _
  · rw [enter_transformed]

theorem runBlocks_transformed (blocks : List Block) :
    progress.transformed <+: (progress.runBlocks settings blocks).transformed := by
  induction blocks generalizing progress with
  | nil => exact List.prefix_rfl
  | cons block rest ih =>
      rw [runBlocks]
      split_ifs
      · exact step_transformed
      · exact step_transformed.trans ih

theorem runCalls_transformed (calls : List (Transfer × Timeval)) :
    progress.transformed <+: (progress.runCalls settings calls).transformed := by
  induction calls generalizing progress with
  | nil => exact List.prefix_rfl
  | cons call rest ih => exact (runBlocks_transformed _).trans ih

/-- However the stream is cut, what has been transformed at the cut is the
beginning of what is transformed in the end. -/
theorem foldl_transformed_prefix {calls : List (Transfer × Timeval)}
    {blocks rest : List Block} (hstream : stream calls = blocks ++ rest)
    (hexit : (blocks.foldl (step settings) progress).doExit = false) :
    (blocks.foldl (step settings) progress).transformed <+:
      (progress.runCalls settings calls).transformed := by
  induction calls generalizing progress blocks with
  | nil =>
      obtain ⟨rfl, -⟩ : blocks = [] ∧ rest = [] := by
        simpa [stream] using hstream.symm
      exact List.prefix_rfl
  | cons call calls ih =>
      have hcons : call.1.blocksFrom call.2 0 blocksPerTransfer ++ stream calls =
          blocks ++ rest := hstream
      rcases List.append_eq_append_iff.mp hcons with
        ⟨more, rfl, htail⟩ | ⟨more, hhead, -⟩
      · -- the cut is after this transfer
        rw [List.foldl_append] at hexit ⊢
        have hprogress := runBlocks_eq_foldl (doExit_of_foldl hexit)
        rw [runCalls, List.foldl_cons, hprogress]
        exact ih htail hexit
      · -- the cut is within this transfer
        have hprogress := runBlocks_append more hexit
        rw [runCalls, List.foldl_cons, hhead, hprogress]
        exact (runBlocks_transformed more).trans (runCalls_transformed calls)

/-! ## Between two start-frequency blocks -/

theorem foldl_of_no_start {segment : List Block}
    (hexit : progress.doExit = false) (hstarted : progress.sweepStarted = true)
    (hsegment : ∀ block ∈ segment, block.isStart settings = false) :
    segment.foldl (step settings) progress =
      progress.extend settings segment := by
  induction segment generalizing progress with
  | nil => simp [extend]
  | cons block rest ih =>
      obtain ⟨hblock, hrest⟩ := List.forall_mem_cons.mp hsegment
      have hnext : progress.step settings block =
          progress.extend settings [block] := by
        have henter : progress.enter settings block = progress :=
          enter_of_not_start hblock
        have hstep := step_of_started
          (by rw [step_doExit, henter]; exact hexit) hstarted
        rwa [henter] at hstep
      have hexit' : (progress.extend settings [block]).doExit = false := hexit
      rw [List.foldl_cons, hnext, ih hexit' hstarted hrest, extend_extend,
        List.singleton_append]

/-- A start-frequency block and the blocks up to the next one share the
timestamp of the former. -/
theorem foldl_sweep {start : Block} {segment : List Block}
    (hstart : start.isStart settings = true)
    (hsegment : ∀ block ∈ segment, block.isStart settings = false)
    (hexit : (progress.step settings start).doExit = false) :
    ((start :: segment).foldl (step settings) progress).transformed =
      progress.transformed ++ ((start :: segment).filter Block.inBand).map
        (Block.entry settings (start.timeStamp settings)) := by
  have hstarted : (progress.step settings start).sweepStarted = true := by
    rw [step_sweepStarted, hstart, Bool.or_true]
  rw [List.foldl_cons, foldl_of_no_start hexit hstarted hsegment,
    step_of_start hexit hstart, extend_extend, List.singleton_append]
  simp [extend, enter_of_start hstart]

/-! ## What a run has transformed and counted -/

theorem foldl_sweepStarted (blocks : List Block) :
    (blocks.foldl (step settings) progress).sweepStarted =
      (progress.sweepStarted || blocks.any (Block.isStart settings)) := by
  induction blocks generalizing progress with
  | nil => simp
  | cons block rest ih =>
      rw [List.foldl_cons, ih, step_sweepStarted, List.any_cons, Bool.or_assoc]

theorem foldl_source_of_started {blocks : List Block}
    (hexit : (blocks.foldl (step settings) progress).doExit = false)
    (hstarted : progress.sweepStarted = true) :
    (blocks.foldl (step settings) progress).transformed.map
        Transformed.source =
      progress.transformed.map Transformed.source ++
        (blocks.filter Block.inBand).map (Block.source settings) := by
  induction blocks generalizing progress with
  | nil => simp
  | cons block rest ih =>
      have hstep := step_of_started (doExit_of_foldl hexit) hstarted
      rw [List.foldl_cons,
        ih hexit (by rw [step_sweepStarted, hstarted, Bool.true_or]), hstep,
        extend_source, enter_transformed, List.append_assoc,
        ← List.map_append, ← List.filter_append, List.singleton_append]

theorem foldl_source {blocks : List Block}
    (hexit : (blocks.foldl (step settings) progress).doExit = false)
    (hstarted : progress.sweepStarted = false) :
    (blocks.foldl (step settings) progress).transformed.map
        Transformed.source =
      progress.transformed.map Transformed.source ++
        (transformable settings blocks).map (Block.source settings) := by
  induction blocks with
  | nil => simp [transformable]
  | cons block rest ih =>
      rw [List.foldl_cons] at hexit ⊢
      cases hstart : block.isStart settings with
      | false =>
          rw [step_of_not_started hstarted hstart] at hexit ⊢
          rw [ih hexit]
          simp [transformable, hstart]
      | true =>
          have hstep := step_of_start (doExit_of_foldl hexit) hstart
          rw [foldl_source_of_started hexit
              (by rw [step_sweepStarted, hstart, Bool.or_true]), hstep,
            extend_source, enter_transformed, List.append_assoc,
            ← List.map_append, ← List.filter_append, List.singleton_append]
          simp [transformable, hstart]

theorem foldl_sweepCount_of_started {blocks : List Block}
    (hexit : (blocks.foldl (step settings) progress).doExit = false)
    (hstarted : progress.sweepStarted = true) :
    (blocks.foldl (step settings) progress).sweepCount =
      progress.sweepCount +
        UInt64.ofNat (blocks.countP (Block.isStart settings)) := by
  induction blocks generalizing progress with
  | nil => simp
  | cons block rest ih =>
      have hstep := step_of_started (doExit_of_foldl hexit) hstarted
      have hcount : (progress.step settings block).sweepCount =
          progress.sweepCount +
            UInt64.ofNat ([block].countP (Block.isStart settings)) := by
        rw [hstep]
        cases hstart : block.isStart settings with
        | false => simp [extend, enter_of_not_start hstart, hstart]
        | true => simp [extend, enter_of_start hstart, hstart, hstarted]
      rw [List.foldl_cons,
        ih hexit (by rw [step_sweepStarted, hstarted, Bool.true_or]), hcount,
        UInt64.add_assoc, ← UInt64.ofNat_add, ← List.countP_append,
        List.singleton_append]

theorem foldl_sweepCount {blocks : List Block}
    (hexit : (blocks.foldl (step settings) progress).doExit = false)
    (hstarted : progress.sweepStarted = false) :
    (blocks.foldl (step settings) progress).sweepCount =
      progress.sweepCount +
        UInt64.ofNat (blocks.countP (Block.isStart settings) - 1) := by
  induction blocks with
  | nil => simp
  | cons block rest ih =>
      rw [List.foldl_cons] at hexit ⊢
      cases hstart : block.isStart settings with
      | false =>
          rw [step_of_not_started hstarted hstart] at hexit ⊢
          rw [ih hexit]
          simp [hstart]
      | true =>
          have hstep := step_of_start (doExit_of_foldl hexit) hstart
          rw [foldl_sweepCount_of_started hexit
              (by rw [step_sweepStarted, hstart, Bool.or_true]), hstep]
          simp [extend, enter_of_start hstart, hstarted, hstart]

/-! ## Processed blocks -/

/-- The block is transformed, after whatever it starts. -/
def Processes (settings : Settings F) (progress : Progress) (block : Block) :
    Prop :=
  (progress.enter settings block).doExit = false ∧
    (progress.enter settings block).sweepStarted = true ∧ block.inBand = true

instance : Decidable (progress.Processes settings block) :=
  inferInstanceAs (Decidable (_ ∧ _ ∧ _))

theorem step_transformed_eq :
    (progress.step settings block).transformed = progress.transformed ++
      if progress.Processes settings block then
        [block.entry settings (progress.enter settings block).timeStamp]
      else [] := by
  have hentered : (progress.enter settings block).transformed =
      progress.transformed := enter_transformed
  by_cases hprocesses : progress.Processes settings block
  · rw [if_pos hprocesses, ← hentered]
    exact congrArg transformed (if_pos hprocesses)
  · rw [if_neg hprocesses, List.append_nil, ← hentered]
    exact congrArg transformed (if_neg hprocesses)

/-! ## Runs without a bound -/

theorem step_doExit_of_unbounded (hunbounded : settings.Unbounded)
    (hexit : progress.doExit = false) :
    (progress.step settings block).doExit = false := by
  rw [step_doExit]
  unfold enter
  cases block.isStart settings with
  | false => exact hexit
  | true => simp [hexit, hunbounded.endsAt]

theorem foldl_doExit_of_unbounded (hunbounded : settings.Unbounded)
    (hexit : progress.doExit = false) (blocks : List Block) :
    (blocks.foldl (step settings) progress).doExit = false := by
  induction blocks generalizing progress with
  | nil => exact hexit
  | cons block rest ih =>
      exact ih (step_doExit_of_unbounded hunbounded hexit)

/-- Without a bound, a run is a fold over its stream. -/
theorem runCalls_eq_foldl (hunbounded : settings.Unbounded)
    (hexit : progress.doExit = false) (calls : List (Transfer × Timeval)) :
    progress.runCalls settings calls =
      (stream calls).foldl (step settings) progress := by
  induction calls generalizing progress with
  | nil => rfl
  | cons call rest ih =>
      have hopen := foldl_doExit_of_unbounded hunbounded hexit
        (call.1.blocksFrom call.2 0 blocksPerTransfer)
      have hstream : stream (call :: rest) =
          call.1.blocksFrom call.2 0 blocksPerTransfer ++ stream rest := rfl
      rw [runCalls, List.foldl_cons, runBlocks_eq_foldl hopen, hstream,
        List.foldl_append]
      exact ih hopen

end Progress

namespace State

variable (ops : FloatOps F) (settings : Settings F) (state : State F)
  (block : Block)

/-- The callback transforms the block, after whatever it starts. -/
def Processes : Prop := state.progress.Processes settings block

theorem blockStep_eq_enterBlock (hprocesses : ¬ state.Processes settings block) :
    state.blockStep ops settings block =
      state.enterBlock ops settings block := by
  have henter := state.enterBlock_progress ops settings block
  unfold Processes Progress.Processes at hprocesses
  rw [← henter] at hprocesses
  exact if_neg hprocesses

theorem blockStep_of_processes (hprocesses : state.Processes settings block) :
    state.blockStep ops settings block =
      (state.enterBlock ops settings block).processBlock ops settings block := by
  have henter := state.enterBlock_progress ops settings block
  unfold Processes Progress.Processes at hprocesses
  rw [← henter] at hprocesses
  exact if_pos hprocesses

theorem completeSweep_arrays :
    (state.completeSweep settings).records = state.records ∧
      (state.completeSweep settings).fftwIn = state.fftwIn ∧
      (state.completeSweep settings).power = state.power := by
  obtain ⟨count, exit, hcomplete⟩ := state.completeSweep_frame settings
  rw [hcomplete]
  exact ⟨rfl, rfl, rfl⟩

/-- What a block starts adds no record, and leaves the input of the transform
and the levels alone. -/
theorem enterBlock_arrays :
    (state.enterBlock ops settings block).records = state.records ∧
      (state.enterBlock ops settings block).fftwIn = state.fftwIn ∧
      (state.enterBlock ops settings block).power = state.power := by
  unfold enterBlock startSweep
  dsimp only
  split_ifs with hstart hstarted hifft
  · exact (state.writeIfft ops settings).completeSweep_arrays settings
  · exact state.completeSweep_arrays settings
  · exact ⟨rfl, rfl, rfl⟩
  · exact ⟨rfl, rfl, rfl⟩

end State

/-- `rx_callback` over a run without a bound, from the initial state.  The
blocks transformed are those in band from the first start-frequency block on,
in order; the sweeps counted are the start-frequency blocks after the first;
and a start-frequency block with the blocks up to the next one is transformed
under the timestamp computed at the former. -/
theorem rxCallbacks_stream (ops : FloatOps F) (settings : Settings F) (zero : F)
    (hfd : settings.fd = true) (hunbounded : settings.Unbounded)
    (calls : List (Transfer × Timeval)) :
    let final := (State.initial zero).rxCallbacks ops settings calls
    final.transformed.map Transformed.source =
        (transformable settings (stream calls)).map (Block.source settings) ∧
      final.sweepCount = UInt64.ofNat
        ((stream calls).countP (Block.isStart settings) - 1) ∧
      ∀ before start segment after,
        stream calls = before ++ (start :: segment) ++ after →
        start.isStart settings = true →
        (∀ block ∈ segment, block.isStart settings = false) →
        ∃ earlier later,
          final.transformed = earlier ++
            ((start :: segment).filter Block.inBand).map
              (Block.entry settings (start.timeStamp settings)) ++ later ∧
          earlier.map Transformed.source =
            (transformable settings before).map (Block.source settings) := by
  intro final
  have hprogress : final.progress = (stream calls).foldl
      (Progress.step settings) (State.initial zero).progress := by
    rw [State.rxCallbacks_progress ops settings hfd]
    exact Progress.runCalls_eq_foldl hunbounded rfl calls
  have htransformed : final.transformed = ((stream calls).foldl
      (Progress.step settings) (State.initial zero).progress).transformed := by
    rw [← hprogress]
    rfl
  have hcount : final.sweepCount = ((stream calls).foldl
      (Progress.step settings) (State.initial zero).progress).sweepCount := by
    rw [← hprogress]
    rfl
  have hopen : ∀ blocks : List Block, (blocks.foldl (Progress.step settings)
      (State.initial zero).progress).doExit = false :=
    Progress.foldl_doExit_of_unbounded hunbounded rfl
  refine ⟨?_, ?_, ?_⟩
  · rw [htransformed, Progress.foldl_source (hopen _) rfl]
    rfl
  · rw [hcount, Progress.foldl_sweepCount (hopen _) rfl]
    exact UInt64.zero_add _
  · intro before start segment after hstream hstart hsegment
    have hnext : ((before.foldl (Progress.step settings)
        (State.initial zero).progress).step settings start).doExit = false :=
      Progress.step_doExit_of_unbounded hunbounded (hopen before)
    have hsweep := Progress.foldl_sweep hstart hsegment hnext
    have hcut := Progress.foldl_transformed_prefix hstream (hopen _)
    rw [List.foldl_append, hsweep,
      Progress.runCalls_eq_foldl hunbounded rfl, ← htransformed] at hcut
    obtain ⟨later, hlater⟩ := hcut
    refine ⟨_, later, hlater.symm, ?_⟩
    rw [Progress.foldl_source (hopen _) rfl]
    rfl

/-- A sweep of one step from 0 MHz with 20 bins, and a transfer all of whose
blocks carry the start frequency. -/
theorem rxCallbacks_stream_startBlocks :
    let settings : Settings Unit := {
      fd := true
      numSamples := 8192
      numSweeps := 0
      frequencies := fun i => if i = 1 then 20 else 0
      stepCount := 1
      fftSize := ⟨20, by decide, by decide, by decide⟩
      binaryOutput := false
      ifftOutput := false
      oneShot := false
      finiteMode := false
      window := fun _ => () }
    let transfer : Transfer := {
      buffer := fun i => if i % bytesPerBlock < 2 then 0x7F else 0
      validLength := 262144 }
    ((State.initial ()).rxCallbacks (.forgetful .wrapping) settings
      [(transfer, ⟨0, 0⟩)]).sweepCount = 15 := by
  intro settings transfer
  rw [(rxCallbacks_stream (.forgetful .wrapping) settings () rfl ⟨rfl, rfl⟩
    [(transfer, ⟨0, 0⟩)]).2.1]
  decide

end HackRF.Sweep
