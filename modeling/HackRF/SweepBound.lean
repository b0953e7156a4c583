import HackRF.SweepProgress

/-!
# Runs with a bound on the number of sweeps

With `one_shot`, or with `finite_mode` and `num_sweeps`, the callback sets
`do_exit` when the last sweep is complete.  Until then a run is within its
bound, and afterwards no block is transformed.  But the transfers that still
arrive are searched for their first header, and `do_exit` is tested only after
the bookkeeping of a start-frequency block: where that comes first, it counts
another sweep and writes another inverse transform.
-/

namespace HackRF.Sweep

variable {F : Type*}

def Settings.Bound (settings : Settings F) (n : ℕ) : Prop :=
  settings.oneShot = true ∧ n = 1 ∨
    settings.oneShot = false ∧ settings.finiteMode = true ∧
      n = settings.numSweeps.toNat ∧ 1 ≤ n

def Chunk.isFloat : Chunk F → Bool
  | .float _ => true
  | _ => false

def State.floats (state : State F) : ℕ :=
  state.output.countP Chunk.isFloat

def Settings.frameFloats (settings : Settings F) : ℕ := 2 * settings.ifftBins

/-- The first header of a transfer is that of a start-frequency block. -/
def Settings.opensWithStart (settings : Settings F) (blocks : List Block) :
    Bool :=
  match blocks.find? fun block => hasMarker block.bytes with
  | some block => block.isStart settings
  | none => false

variable {settings : Settings F} {ops : FloatOps F} {n : ℕ}

theorem Settings.Bound.lt (hbound : settings.Bound n) : n < 2 ^ 32 := by
  rcases hbound with ⟨-, rfl⟩ | ⟨-, -, rfl, -⟩
  · norm_num
  · exact UInt32.toNat_lt _

theorem Settings.Bound.endsAt_iff (hbound : settings.Bound n) {count : UInt64}
    (hpos : 1 ≤ count.toNat) (hle : count.toNat ≤ n) :
    settings.endsAt count = true ↔ count.toNat = n := by
  rcases hbound with ⟨hone, rfl⟩ | ⟨hone, hfinite, rfl, -⟩
  · simp only [endsAt, hone, Bool.true_or, true_iff]
    omega
  · simp only [endsAt, hone, hfinite, Bool.false_or, Bool.true_and, beq_iff_eq,
      ← UInt64.toNat_inj, UInt32.toNat_toUInt64]

theorem Block.hasMarker_of_isStart {block : Block}
    (hstart : block.isStart settings = true) :
    hasMarker block.bytes = true := by
  simp only [isStart, Bool.and_eq_true] at hstart
  exact hstart.1

namespace State

variable {state : State F} {block : Block}

/-! ## What a block does to the count, the flags and the floats -/

theorem blockStep_sweepCount (ops : FloatOps F) (settings : Settings F)
    (state : State F) (block : Block) :
    (state.blockStep ops settings block).sweepCount =
      if block.isStart settings && state.sweepStarted then
        state.sweepCount + 1
      else state.sweepCount := by
  have hcount := congrArg Progress.sweepCount
    (state.blockStep_progress ops settings block)
  have hstep : (state.progress.step settings block).sweepCount =
      (state.progress.enter settings block).sweepCount := by
    unfold Progress.step
    dsimp only
    split_ifs <;> rfl
  rw [hstep] at hcount
  apply hcount.trans
  cases hstart : block.isStart settings with
  | false => rw [Progress.enter_of_not_start hstart]; rfl
  | true => rw [Progress.enter_of_start hstart]; rfl

theorem blockStep_sweepStarted (ops : FloatOps F) (settings : Settings F)
    (state : State F) (block : Block) :
    (state.blockStep ops settings block).sweepStarted =
      (state.sweepStarted || block.isStart settings) :=
  (congrArg Progress.sweepStarted
    (state.blockStep_progress ops settings block)).trans
    Progress.step_sweepStarted

theorem enterBlock_doExit (ops : FloatOps F) (settings : Settings F)
    (state : State F) (block : Block) :
    (state.enterBlock ops settings block).doExit =
      (state.doExit || block.isStart settings && state.sweepStarted &&
        settings.endsAt (state.sweepCount + 1)) := by
  have hexit := congrArg Progress.doExit
    (state.enterBlock_progress ops settings block)
  apply hexit.trans
  cases hstart : block.isStart settings with
  | false =>
      rw [Progress.enter_of_not_start hstart]
      simp [progress]
  | true =>
      rw [Progress.enter_of_start hstart]
      simp [progress]

theorem blockStep_doExit (ops : FloatOps F) (settings : Settings F)
    (state : State F) (block : Block) :
    (state.blockStep ops settings block).doExit =
      (state.enterBlock ops settings block).doExit := by
  have hstep := congrArg Progress.doExit
    (state.blockStep_progress ops settings block)
  have henter := congrArg Progress.doExit
    (state.enterBlock_progress ops settings block)
  exact hstep.trans (Progress.step_doExit.trans henter.symm)

theorem writeIfft_floats :
    (state.writeIfft ops settings).floats =
      state.floats + settings.frameFloats := by
  have hframe : ∀ (bins : ℕ) (values : ℕ → F × F),
      ((List.range bins).flatMap fun i =>
        [Chunk.float (values i).1, .float (values i).2]).countP
          Chunk.isFloat = 2 * bins := by
    intro bins values
    induction bins with
    | zero => rfl
    | succ bins ih =>
        rw [List.range_succ, List.flatMap_append, List.countP_append, ih]
        rfl
  simp only [writeIfft, floats, List.countP_append, hframe]
  rfl

theorem completeSweep_floats :
    (state.completeSweep settings).floats = state.floats := by
  obtain ⟨count, exit, hcomplete⟩ := state.completeSweep_frame settings
  rw [hcomplete]
  rfl

theorem enterBlock_floats_le (ops : FloatOps F) (settings : Settings F)
    (state : State F) (block : Block) :
    (state.enterBlock ops settings block).floats ≤ state.floats +
      if block.isStart settings && state.sweepStarted then
        settings.frameFloats
      else 0 := by
  unfold enterBlock
  cases block.isStart settings with
  | false => exact Nat.le_add_right _ _
  | true =>
      simp only [↓reduceIte, startSweep, Bool.true_and]
      cases state.sweepStarted with
      | false => exact Nat.le_add_right _ _
      | true =>
          cases settings.ifftOutput with
          | false =>
              exact completeSweep_floats.le.trans (Nat.le_add_right _ _)
          | true => exact (completeSweep_floats.trans writeIfft_floats).le

theorem processBlock_floats :
    (state.processBlock ops settings block).floats = state.floats := by
  have hlevels : ∀ values : List F,
      (values.map Chunk.level).countP Chunk.isFloat = 0 := by
    intro values
    rw [List.countP_eq_zero]
    simp [Chunk.isFloat]
  unfold processBlock emitBlock
  split_ifs
  · rfl
  · rfl
  · simp only [emitText, floats, textRow, List.countP_append, List.countP_cons,
      hlevels]
    rfl

theorem blockStep_floats_le (ops : FloatOps F) (settings : Settings F)
    (state : State F) (block : Block) :
    (state.blockStep ops settings block).floats ≤ state.floats +
      if block.isStart settings && state.sweepStarted then
        settings.frameFloats
      else 0 := by
  have hsame : (state.blockStep ops settings block).floats =
      (state.enterBlock ops settings block).floats := by
    unfold blockStep
    dsimp only
    split_ifs
    · exact processBlock_floats
    · rfl
  rw [hsame]
  exact enterBlock_floats_le ops settings state block

/-! ## Within the bound -/

/-- No sweep too many has been counted, and the next one does not exceed the
bound. -/
structure Running (settings : Settings F) (n : ℕ) (seen : List Block)
    (state : State F) : Prop where
  doExit : state.doExit = false
  sweepCount_lt : state.sweepCount.toNat < n
  starts : seen.countP (Block.isStart settings) =
    state.sweepCount.toNat + if state.sweepStarted then 1 else 0
  floats_le : state.floats ≤ state.sweepCount.toNat * settings.frameFloats

structure Stopped (settings : Settings F) (n : ℕ) (seen : List Block)
    (state : State F) : Prop where
  doExit : state.doExit = true
  sweepStarted : state.sweepStarted = true
  sweepCount_eq : state.sweepCount.toNat = n
  starts : n < seen.countP (Block.isStart settings)
  floats_le : state.floats ≤ n * settings.frameFloats

def WithinBound (settings : Settings F) (n : ℕ) (seen : List Block)
    (state : State F) : Prop :=
  state.Running settings n seen ∨ state.Stopped settings n seen

theorem Running.not_lt {seen : List Block}
    (hrunning : state.Running settings n seen) :
    ¬ n < seen.countP (Block.isStart settings) := by
  have hstarts := hrunning.starts
  have hlt := hrunning.sweepCount_lt
  split_ifs at hstarts <;> omega

theorem Stopped.mono {seen : List Block}
    (hstopped : state.Stopped settings n seen) (more : List Block) :
    state.Stopped settings n (seen ++ more) where
  doExit := hstopped.doExit
  sweepStarted := hstopped.sweepStarted
  sweepCount_eq := hstopped.sweepCount_eq
  starts := by
    rw [List.countP_append]
    exact lt_of_lt_of_le hstopped.starts (Nat.le_add_right _ _)
  floats_le := hstopped.floats_le

theorem WithinBound.sweepCount_le {seen : List Block}
    (hwithin : state.WithinBound settings n seen) :
    state.sweepCount.toNat ≤ n := by
  rcases hwithin with hrunning | hstopped
  · exact hrunning.sweepCount_lt.le
  · exact hstopped.sweepCount_eq.le

theorem WithinBound.floats_le {seen : List Block}
    (hwithin : state.WithinBound settings n seen) :
    state.floats ≤ n * settings.frameFloats := by
  rcases hwithin with hrunning | hstopped
  · exact hrunning.floats_le.trans
      (Nat.mul_le_mul_right _ hrunning.sweepCount_lt.le)
  · exact hstopped.floats_le

theorem Running.blockStep (ops : FloatOps F) {seen : List Block}
    (hbound : settings.Bound n) (hrunning : state.Running settings n seen)
    (block : Block) :
    (state.blockStep ops settings block).WithinBound settings n
      (seen ++ [block]) := by
  have hlt := hrunning.sweepCount_lt
  have hn := hbound.lt
  have hcount := blockStep_sweepCount ops settings state block
  have hstarted := blockStep_sweepStarted ops settings state block
  have hexit := enterBlock_doExit ops settings state block
  have hfloats := blockStep_floats_le ops settings state block
  have hstarts := hrunning.starts
  rw [← blockStep_doExit, hrunning.doExit, Bool.false_or] at hexit
  by_cases hnext : (block.isStart settings && state.sweepStarted) = true
  · -- a sweep is complete
    rw [if_pos hnext] at hcount hfloats
    rw [hnext, Bool.true_and] at hexit
    simp only [Bool.and_eq_true] at hnext
    have hsucc : (state.sweepCount + 1).toNat = state.sweepCount.toNat + 1 := by
      rw [UInt64.toNat_add]
      exact Nat.mod_eq_of_lt (by
        have hone : (1 : UInt64).toNat = 1 := rfl
        omega)
    have hseen : (seen ++ [block]).countP (Block.isStart settings) =
        state.sweepCount.toNat + 2 := by
      rw [List.countP_append, hstarts]
      simp [hnext.1, hnext.2]
    have hframes : (state.blockStep ops settings block).floats ≤
        (state.sweepCount.toNat + 1) * settings.frameFloats := by
      rw [Nat.add_mul, Nat.one_mul]
      exact hfloats.trans (Nat.add_le_add_right hrunning.floats_le _)
    have hends : settings.endsAt (state.sweepCount + 1) = true ↔
        state.sweepCount.toNat + 1 = n := by
      rw [hbound.endsAt_iff (by omega) (by omega), hsucc]
    rw [hnext.2, Bool.true_or] at hstarted
    by_cases hlast : state.sweepCount.toNat + 1 = n
    · exact .inr {
        doExit := hexit.trans (hends.mpr hlast)
        sweepStarted := hstarted
        sweepCount_eq := by rw [hcount, hsucc, hlast]
        starts := by omega
        floats_le := hlast ▸ hframes }
    · exact .inl {
        doExit := by
          rw [hexit]
          exact Bool.eq_false_of_not_eq_true fun h => hlast (hends.mp h)
        sweepCount_lt := by
          rw [hcount, hsucc]
          omega
        starts := by
          rw [hseen, hcount, hsucc, hstarted, if_pos rfl]
        floats_le := by
          rw [hcount, hsucc]
          exact hframes }
  · -- the count stays
    rw [if_neg hnext] at hcount hfloats
    rw [Bool.eq_false_of_not_eq_true hnext, Bool.false_and] at hexit
    refine .inl ⟨hexit, by rwa [hcount], ?_, by
      rw [hcount]
      exact hfloats.trans hrunning.floats_le⟩
    rw [List.countP_append, hstarts, hcount, hstarted]
    cases hstart : block.isStart settings with
    | false => simp [hstart]
    | true =>
        have hunstarted : state.sweepStarted = false := by
          simpa [hstart] using hnext
        simp [hstart, hunstarted]

theorem blocksFrom_succ (transfer : Transfer) (time : Timeval) (j k : ℕ) :
    transfer.blocksFrom time j (k + 1) =
      transfer.block time j :: transfer.blocksFrom time (j + 1) k := by
  simp [Transfer.blocksFrom, List.range'_succ]

theorem Running.rxLoop (ops : FloatOps F) {seen : List Block}
    (hbound : settings.Bound n) (hrunning : state.Running settings n seen)
    (transfer : Transfer) (time : Timeval) (k j : ℕ) :
    (state.rxLoop ops settings transfer.buffer time k j
      (j * bytesPerBlock)).WithinBound settings n
      (seen ++ transfer.blocksFrom time j k) := by
  induction k generalizing j seen state with
  | zero =>
      rw [Transfer.blocksFrom, List.range'_zero, List.map_nil, List.append_nil]
      exact .inl hrunning
  | succ k ih =>
      rw [State.rxLoop, rxBlock_eq, blocksFrom_succ, List.append_cons]
      rcases hrunning.blockStep ops hbound (transfer.block time j) with
        hnext | hnext
      · -- the loop goes on
        have hexits : state.exitsAt ops settings (transfer.block time j) =
            false := by
          rw [exitsAt, ← blockStep_doExit, hnext.doExit, Bool.and_false]
        rw [hexits]
        exact ih hnext (j + 1)
      · -- the block has a header, so the callback returns
        have hexit := hnext.doExit
        rw [blockStep_doExit] at hexit
        have hexits : state.exitsAt ops settings (transfer.block time j) =
            true := by
          rw [exitsAt, hexit, Bool.and_true]
          rw [enterBlock_doExit, hrunning.doExit, Bool.false_or,
            Bool.and_assoc, Bool.and_eq_true] at hexit
          exact Block.hasMarker_of_isStart hexit.1
        rw [hexits]
        exact .inr (hnext.mono _)

/-! ## After `do_exit` -/

theorem blockStep_of_doExit (hexit : state.doExit = true)
    (hstart : block.isStart settings = false) :
    state.blockStep ops settings block = state := by
  have henter : state.enterBlock ops settings block = state := by
    rw [enterBlock, hstart]
    rfl
  rw [blockStep, henter]
  simp [hexit]

theorem exitsAt_of_doExit (hexit : state.doExit = true) :
    state.exitsAt ops settings block = hasMarker block.bytes := by
  rw [exitsAt, enterBlock_doExit, hexit, Bool.true_or, Bool.and_true]

theorem opensWithStart_cons {blocks : List Block} :
    settings.opensWithStart (block :: blocks) =
      if hasMarker block.bytes then block.isStart settings
      else settings.opensWithStart blocks := by
  unfold Settings.opensWithStart
  rw [List.find?_cons]
  cases hasMarker block.bytes <;> rfl

theorem isStart_of_not_hasMarker (hmarker : hasMarker block.bytes = false) :
    block.isStart settings = false := by
  rw [Block.isStart, hmarker, Bool.false_and]

/-- Once `do_exit` is set, the loop goes on to the first block with a
header. -/
theorem rxLoop_succ_of_doExit {ops : FloatOps F} (hexit : state.doExit = true)
    (transfer : Transfer) (time : Timeval) (k j : ℕ) :
    state.rxLoop ops settings transfer.buffer time (k + 1) j
        (j * bytesPerBlock) =
      if hasMarker (transfer.block time j).bytes then
        state.blockStep ops settings (transfer.block time j)
      else state.rxLoop ops settings transfer.buffer time k (j + 1)
        ((j + 1) * bytesPerBlock) := by
  rw [rxLoop, rxBlock_eq, exitsAt_of_doExit hexit]
  cases hmarker : hasMarker (transfer.block time j).bytes with
  | true => rfl
  | false =>
      rw [blockStep_of_doExit hexit (isStart_of_not_hasMarker hmarker)]
      rfl

/-- A transfer that does not open with a start-frequency block is passed
over. -/
theorem rxLoop_of_doExit (ops : FloatOps F) (hexit : state.doExit = true)
    (transfer : Transfer) (time : Timeval) {k m j : ℕ} (hk : k ≤ m)
    (hopens : settings.opensWithStart (transfer.blocksFrom time j m) = false) :
    state.rxLoop ops settings transfer.buffer time k j (j * bytesPerBlock) =
      state := by
  induction k generalizing j m with
  | zero => rfl
  | succ k ih =>
      obtain ⟨m, rfl⟩ : ∃ rest, m = rest + 1 := ⟨m - 1, by omega⟩
      rw [blocksFrom_succ, opensWithStart_cons] at hopens
      rw [rxLoop_succ_of_doExit hexit]
      split_ifs at hopens ⊢ with hmarker
      · exact blockStep_of_doExit hexit hopens
      · exact ih (by omega) hopens

theorem rxLoop_sweepCount_of_doExit (ops : FloatOps F)
    (hexit : state.doExit = true)
    (hstarted : state.sweepStarted = true) (transfer : Transfer)
    (time : Timeval) {k j : ℕ}
    (hopens : settings.opensWithStart (transfer.blocksFrom time j k) = true) :
    (state.rxLoop ops settings transfer.buffer time k j
      (j * bytesPerBlock)).sweepCount = state.sweepCount + 1 := by
  induction k generalizing j with
  | zero => simp [Transfer.blocksFrom, Settings.opensWithStart] at hopens
  | succ k ih =>
      rw [blocksFrom_succ, opensWithStart_cons] at hopens
      rw [rxLoop_succ_of_doExit hexit]
      split_ifs at hopens ⊢ with hmarker
      · apply (blockStep_sweepCount ops settings state _).trans
        rw [hopens, hstarted]
        rfl
      · exact ih hopens

theorem blockStep_transformed_of_doExit (ops : FloatOps F)
    (settings : Settings F) (hexit : state.doExit = true) (block : Block) :
    (state.blockStep ops settings block).doExit = true ∧
      (state.blockStep ops settings block).transformed = state.transformed := by
  have hentered : (state.enterBlock ops settings block).doExit = true := by
    rw [enterBlock_doExit, hexit, Bool.true_or]
  refine ⟨(blockStep_doExit ops settings state block).trans hentered, ?_⟩
  have htransformed := congrArg Progress.transformed
    (state.enterBlock_progress ops settings block)
  rw [Progress.enter_transformed] at htransformed
  rw [blockStep, if_neg (by simp [hentered])]
  exact htransformed

/-- Once `do_exit` is set, the rest of a transfer leaves the list of
transformed blocks alone. -/
theorem rxLoop_transformed_of_doExit (transfer : Transfer) (time : Timeval)
    {k m j : ℕ} (hk : k ≤ m)
    (hexit : (state.rxLoop ops settings transfer.buffer time k j
      (j * bytesPerBlock)).doExit = true) :
    (state.rxLoop ops settings transfer.buffer time m j
        (j * bytesPerBlock)).doExit = true ∧
      (state.rxLoop ops settings transfer.buffer time m j
        (j * bytesPerBlock)).transformed =
      (state.rxLoop ops settings transfer.buffer time k j
        (j * bytesPerBlock)).transformed := by
  induction k generalizing j m state with
  | zero =>
      refine rxLoop_invariant ops settings
        (fun state' => state'.doExit = true ∧
          state'.transformed = state.transformed) ?_ transfer time m j state
        ⟨hexit, rfl⟩
      rintro state' block ⟨hexit', htransformed⟩
      have hnext := blockStep_transformed_of_doExit ops settings hexit' block
      exact ⟨hnext.1, hnext.2.trans htransformed⟩
  | succ k ih =>
      obtain ⟨m, rfl⟩ : ∃ rest, m = rest + 1 := ⟨m - 1, by omega⟩
      rw [rxLoop, rxBlock_eq] at hexit
      rw [rxLoop, rxLoop, rxBlock_eq]
      cases hexits : state.exitsAt ops settings (transfer.block time j) with
      | true =>
          rw [hexits] at hexit
          exact ⟨hexit, rfl⟩
      | false =>
          rw [hexits] at hexit
          exact ih (by omega) hexit

/-! ## Runs -/

/-- The globals after `k` blocks of a call. -/
def duringCall (ops : FloatOps F) (settings : Settings F)
    (call : Transfer × Timeval) (k : ℕ) (state : State F) : State F :=
  if settings.fd = false then state
  else
    { state with
      byteCount := state.byteCount + call.1.validLength }.rxLoop ops settings
        call.1.buffer call.2 k 0 0

theorem rxCallback_eq_duringCall (ops : FloatOps F) (settings : Settings F)
    (call : Transfer × Timeval) (state : State F) :
    (state.rxCallback ops settings call.1 call.2).2 =
      state.duringCall ops settings call blocksPerTransfer := by
  unfold rxCallback duringCall
  split_ifs <;> rfl

theorem rxCallbacks_concat (ops : FloatOps F) (settings : Settings F)
    (before : List (Transfer × Timeval)) (call : Transfer × Timeval) :
    state.rxCallbacks ops settings (before ++ [call]) =
      (state.rxCallbacks ops settings before).duringCall ops settings call
        blocksPerTransfer := by
  rw [rxCallbacks, List.foldl_append]
  exact rxCallback_eq_duringCall ops settings call _

theorem WithinBound.withBytes {seen : List Block}
    (hwithin : state.WithinBound settings n seen) (byteCount : UInt32) :
    { state with byteCount := byteCount }.WithinBound settings n seen := by
  rcases hwithin with hrunning | hstopped
  · exact .inl ⟨hrunning.doExit, hrunning.sweepCount_lt, hrunning.starts,
      hrunning.floats_le⟩
  · exact .inr ⟨hstopped.doExit, hstopped.sweepStarted,
      hstopped.sweepCount_eq, hstopped.starts, hstopped.floats_le⟩

theorem WithinBound.duringCall (ops : FloatOps F) {seen : List Block}
    (hfd : settings.fd = true) (hbound : settings.Bound n)
    (hwithin : state.WithinBound settings n seen) {call : Transfer × Timeval}
    (hopens : n < seen.countP (Block.isStart settings) →
      settings.opensWithStart
        (call.1.blocksFrom call.2 0 blocksPerTransfer) = false)
    {k : ℕ} (hk : k ≤ blocksPerTransfer) :
    (state.duringCall ops settings call k).WithinBound settings n
      (seen ++ call.1.blocksFrom call.2 0 k) := by
  rw [State.duringCall, if_neg (by simp [hfd])]
  rcases hwithin.withBytes (state.byteCount + call.1.validLength) with
    hrunning | hstopped
  · have hloop := hrunning.rxLoop ops hbound call.1 call.2 k 0
    rwa [Nat.zero_mul] at hloop
  · have hloop := rxLoop_of_doExit ops hstopped.doExit call.1 call.2 hk
      (hopens hstopped.starts)
    rw [Nat.zero_mul] at hloop
    rw [hloop]
    exact .inr (hstopped.mono _)

theorem WithinBound.opensWithStart (ops : FloatOps F) {seen : List Block}
    (hfd : settings.fd = true) (hbound : settings.Bound n)
    (hwithin : state.WithinBound settings n seen) {call : Transfer × Timeval}
    (hcount : (state.duringCall ops settings call
      blocksPerTransfer).sweepCount.toNat ≤ n)
    (hstarts : n < seen.countP (Block.isStart settings)) :
    settings.opensWithStart
      (call.1.blocksFrom call.2 0 blocksPerTransfer) = false := by
  rw [State.duringCall, if_neg (by simp [hfd])] at hcount
  rcases hwithin.withBytes (state.byteCount + call.1.validLength) with
    hrunning | hstopped
  · exact absurd hstarts hrunning.not_lt
  by_contra hopens
  have hmore := rxLoop_sweepCount_of_doExit ops hstopped.doExit
    hstopped.sweepStarted call.1 call.2 (Bool.eq_true_of_not_eq_false hopens)
  have hn := hbound.lt
  have hone : (1 : UInt64).toNat = 1 := rfl
  rw [Nat.zero_mul] at hmore
  rw [hmore, UInt64.toNat_add, hstopped.sweepCount_eq] at hcount
  omega

theorem rxCallbacks_within (ops : FloatOps F) (hfd : settings.fd = true)
    (hbound : settings.Bound n) (zero : F)
    {calls : List (Transfer × Timeval)}
    (hopens : ∀ before call, before ++ [call] <+: calls →
      n < (stream before).countP (Block.isStart settings) →
      settings.opensWithStart
        (call.1.blocksFrom call.2 0 blocksPerTransfer) = false) :
    ((State.initial zero).rxCallbacks ops settings calls).WithinBound settings n
      (stream calls) := by
  induction calls using List.reverseRecOn with
  | nil =>
      have hpos : 0 < n := by
        rcases hbound with ⟨-, rfl⟩ | ⟨-, -, -, hpos⟩
        · exact Nat.one_pos
        · exact hpos
      exact .inl ⟨rfl, hpos, rfl, Nat.zero_le _⟩
  | append_singleton before call ih =>
      have hbefore := ih fun earlier call' hbegins =>
        hopens earlier call' (hbegins.trans (List.prefix_append _ _))
      have hstream : stream (before ++ [call]) =
          stream before ++ call.1.blocksFrom call.2 0 blocksPerTransfer := by
        simp [stream]
      rw [rxCallbacks_concat, hstream]
      exact hbefore.duringCall ops hfd hbound
        (hopens before call List.prefix_rfl) le_rfl

theorem rxCallbacks_transformed_of_doExit (hexit : state.doExit = true)
    (calls : List (Transfer × Timeval)) :
    (state.rxCallbacks ops settings calls).transformed = state.transformed := by
  refine (rxCallbacks_invariant ops settings
    (fun state' => state'.doExit = true ∧
      state'.transformed = state.transformed) ?_ ?_ ⟨hexit, rfl⟩ calls).2
  · rintro state' block ⟨hexit', htransformed⟩
    have hnext := blockStep_transformed_of_doExit ops settings hexit' block
    exact ⟨hnext.1, hnext.2.trans htransformed⟩
  · exact fun _ _ hstate => hstate

end State

/-- In every state of the run, between its calls and during them, the count
and the frames written stay within the bound, and nothing is transformed once
`do_exit` is set. -/
structure StopsAtBound (ops : FloatOps F) (settings : Settings F) (n : ℕ)
    (state : State F) (calls : List (Transfer × Timeval)) : Prop where
  sweepCount_le : ∀ before call, before ++ [call] <+: calls →
    ∀ k ≤ blocksPerTransfer,
      ((state.rxCallbacks ops settings before).duringCall ops settings call
        k).sweepCount.toNat ≤ n
  floats_le : ∀ before call, before ++ [call] <+: calls →
    ∀ k ≤ blocksPerTransfer,
      ((state.rxCallbacks ops settings before).duringCall ops settings call
        k).floats ≤ n * settings.frameFloats
  transformed_eq : ∀ before call, before ++ [call] <+: calls →
    ∀ k ≤ blocksPerTransfer,
      ((state.rxCallbacks ops settings before).duringCall ops settings call
        k).doExit = true →
      (state.rxCallbacks ops settings calls).transformed =
        ((state.rxCallbacks ops settings before).duringCall ops settings call
          k).transformed

namespace State

theorem rxCallbacks_append (ops : FloatOps F) (settings : Settings F)
    (state : State F) (before after : List (Transfer × Timeval)) :
    state.rxCallbacks ops settings (before ++ after) =
      (state.rxCallbacks ops settings before).rxCallbacks ops settings after :=
  List.foldl_append

theorem duringCall_transformed_of_doExit {state : State F}
    {call : Transfer × Timeval} {k : ℕ} (hk : k ≤ blocksPerTransfer)
    (hexit : (state.duringCall ops settings call k).doExit = true) :
    (state.duringCall ops settings call blocksPerTransfer).doExit = true ∧
      (state.duringCall ops settings call blocksPerTransfer).transformed =
        (state.duringCall ops settings call k).transformed := by
  by_cases hfd : settings.fd = false
  · simp only [duringCall, if_pos hfd] at hexit ⊢
    exact ⟨hexit, trivial⟩
  · simp only [duringCall, if_neg hfd] at hexit ⊢
    rw [← Nat.zero_mul bytesPerBlock] at hexit ⊢
    exact rxLoop_transformed_of_doExit call.1 call.2 hk hexit

/-- No block is transformed once `do_exit` is set, whatever still arrives. -/
theorem rxCallbacks_transformed_eq {state : State F}
    {before calls : List (Transfer × Timeval)} {call : Transfer × Timeval}
    (hbegins : before ++ [call] <+: calls) {k : ℕ} (hk : k ≤ blocksPerTransfer)
    (hexit : ((state.rxCallbacks ops settings before).duringCall ops settings
      call k).doExit = true) :
    (state.rxCallbacks ops settings calls).transformed =
      ((state.rxCallbacks ops settings before).duringCall ops settings call
        k).transformed := by
  obtain ⟨after, rfl⟩ := hbegins
  obtain ⟨hend, htransformed⟩ := duringCall_transformed_of_doExit hk hexit
  rw [← htransformed, rxCallbacks_append, rxCallbacks_concat]
  exact rxCallbacks_transformed_of_doExit hend after

end State

theorem StopsAtBound.opens {zero : F} {calls : List (Transfer × Timeval)}
    (hfd : settings.fd = true) (hbound : settings.Bound n)
    (hstops : StopsAtBound ops settings n (State.initial zero) calls)
    {seen : List (Transfer × Timeval)} (hseen : seen <+: calls) :
    ∀ before call, before ++ [call] <+: seen →
      n < (stream before).countP (Block.isStart settings) →
      settings.opensWithStart
        (call.1.blocksFrom call.2 0 blocksPerTransfer) = false := by
  induction seen using List.reverseRecOn with
  | nil =>
      intro before call hbegins
      simp at hbegins
  | append_singleton seen last ih =>
      have hearlier := ih ((List.prefix_append _ _).trans hseen)
      intro before call hbegins hstarts
      rcases List.prefix_concat_iff.mp hbegins with hsame | hbefore
      · obtain ⟨rfl, hcall⟩ := List.append_inj' hsame rfl
        obtain rfl : call = last := by simpa using hcall
        have hwithin := State.rxCallbacks_within ops hfd hbound zero hearlier
        exact hwithin.opensWithStart ops hfd hbound
          (hstops.sweepCount_le before call hseen _ le_rfl) hstarts
      · exact hearlier before call hbefore hstarts

theorem stopsAtBound_of_closed (hfd : settings.fd = false) (zero : F)
    (calls : List (Transfer × Timeval)) :
    StopsAtBound ops settings n (State.initial zero) calls := by
  have hduring : ∀ (before : List (Transfer × Timeval)) call k,
      ((State.initial zero).rxCallbacks ops settings before).duringCall ops
        settings call k = State.initial zero := by
    intro before call k
    rw [State.duringCall, if_pos hfd, State.rxCallbacks_of_closed hfd]
  exact {
    sweepCount_le := fun before call _ k _ => by
      rw [hduring]
      exact Nat.zero_le _
    floats_le := fun before call _ k _ => by
      rw [hduring]
      exact Nat.zero_le _
    transformed_eq := fun before call _ k _ _ => by
      rw [hduring, State.rxCallbacks_of_closed hfd] }

/-- A bounded run stops at its bound exactly if, once the last sweep is
complete, no further transfer opens with a start-frequency block. -/
theorem stopsAtBound_iff (ops : FloatOps F) (settings : Settings F) (zero : F)
    (n : ℕ) (hbound : settings.Bound n) (calls : List (Transfer × Timeval)) :
    StopsAtBound ops settings n (State.initial zero) calls ↔
      ∀ before call, before ++ [call] <+: calls → settings.fd = true →
        n < (stream before).countP (Block.isStart settings) →
        settings.opensWithStart
          (call.1.blocksFrom call.2 0 blocksPerTransfer) = false := by
  by_cases hfd : settings.fd = true
  · constructor
    · intro hstops before call hbegins _
      exact hstops.opens hfd hbound List.prefix_rfl before call hbegins
    · intro hopens
      have hwithin : ∀ before call, before ++ [call] <+: calls →
          ∀ k ≤ blocksPerTransfer,
          (((State.initial zero).rxCallbacks ops settings before).duringCall ops
            settings call k).WithinBound settings n
              (stream before ++ call.1.blocksFrom call.2 0 k) := by
        intro before call hbegins k hk
        have hbefore := State.rxCallbacks_within ops hfd hbound zero
          fun earlier call' hearlier => hopens earlier call'
            ((hearlier.trans (List.prefix_append _ _)).trans hbegins) hfd
        exact hbefore.duringCall ops hfd hbound
          (hopens before call hbegins hfd) hk
      exact {
        sweepCount_le := fun before call hbegins k hk =>
          (hwithin before call hbegins k hk).sweepCount_le
        floats_le := fun before call hbegins k hk =>
          (hwithin before call hbegins k hk).floats_le
        transformed_eq := fun before call hbegins k hk =>
          State.rxCallbacks_transformed_eq hbegins hk }
  · have hclosed : settings.fd = false := Bool.eq_false_of_not_eq_true hfd
    exact ⟨fun _ _ _ _ hopen => absurd hopen hfd,
      fun _ => stopsAtBound_of_closed hclosed zero calls⟩

/-- A single sweep of one step from 0 MHz, written as an inverse transform. -/
def oneShotSettings : Settings Unit where
  fd := true
  numSamples := 8192
  numSweeps := 0
  frequencies := fun i => if i = 1 then 20 else 0
  stepCount := 1
  fftSize := ⟨4, by decide, by decide, by decide⟩
  binaryOutput := false
  ifftOutput := true
  oneShot := true
  finiteMode := false
  window := fun _ => ()

/-- All blocks have the header of 0 Hz. -/
def startTransfer : Transfer where
  buffer := fun i => if i % bytesPerBlock < 2 then 0x7F else 0
  validLength := 262144

def blankTransfer : Transfer where
  buffer := fun _ => 0
  validLength := 262144

theorem stopsAtBound_oneShot :
    StopsAtBound (.forgetful .wrapping) oneShotSettings 1 (State.initial ())
      [(startTransfer, ⟨0, 0⟩), (blankTransfer, ⟨1, 0⟩)] := by
  refine (stopsAtBound_iff (.forgetful .wrapping) oneShotSettings () 1
    (.inl ⟨rfl, rfl⟩) _).mpr ?_
  intro before call hbegins _ hstarts
  have hconcat : before ++ [call] <+:
      [(startTransfer, ⟨0, 0⟩)] ++ [(blankTransfer, ⟨1, 0⟩)] := hbegins
  rcases List.prefix_concat_iff.mp hconcat with hsame | hbefore
  · obtain ⟨-, hcall⟩ := List.append_inj' hsame rfl
    obtain rfl : call = (blankTransfer, ⟨1, 0⟩) := by simpa using hcall
    decide
  · have hnil : before = [] := by
      have hlength := hbefore.length_le
      simp only [List.length_append, List.length_singleton] at hlength
      exact List.eq_nil_of_length_eq_zero (by omega)
    rw [hnil] at hstarts
    simp [stream] at hstarts

/-- The sweep is complete in the first transfer, and the first block of the
second one counts another. -/
theorem stopsAtBound_fails_oneShot :
    oneShotSettings.Bound 1 ∧
      ¬ StopsAtBound (.forgetful .wrapping) oneShotSettings 1 (State.initial ())
        [(startTransfer, ⟨0, 0⟩), (startTransfer, ⟨1, 0⟩)] := by
  refine ⟨.inl ⟨rfl, rfl⟩, fun hstops => ?_⟩
  have hcount := hstops.sweepCount_le [(startTransfer, ⟨0, 0⟩)]
    (startTransfer, ⟨1, 0⟩) List.prefix_rfl blocksPerTransfer le_rfl
  rw [← State.rxCallbacks_concat] at hcount
  have hprogress := congrArg Progress.sweepCount
    (State.rxCallbacks_progress (.forgetful .wrapping) oneShotSettings rfl
      (State.initial ()) [(startTransfer, ⟨0, 0⟩), (startTransfer, ⟨1, 0⟩)])
  have htwo : (((State.initial ()).progress.runCalls oneShotSettings
      [(startTransfer, ⟨0, 0⟩), (startTransfer, ⟨1, 0⟩)]).sweepCount).toNat =
      2 := by decide
  rw [← hprogress] at htwo
  exact absurd (htwo.symm.le.trans hcount) (by decide)

end HackRF.Sweep
