import HackRF.HandleTrace
import HackRF.SweepHistory

/-!
# The buffers of the sweep service

`hackrf_sweep` allocates its FFT buffers once its arguments are accepted, and
frees them at its very end.  A call that fails in the set-up returns before
that, and the next one overwrites the pointers; the plans are never destroyed.
The range of an accepted call stays stored, so no more than ten calls are ever
accepted and what is lost in a run is bounded.
-/

namespace HackRF.Sweep

open HandleTrace

variable {F : Type*}

/-- The pointers to buffers, the allocations and releases so far, and the
number of plans made. -/
structure FftHeap where
  fftwIn : Option ℕ
  fftwOut : Option ℕ
  power : Option ℕ
  window : Option ℕ
  ifftwIn : Option ℕ
  ifftwOut : Option ℕ
  next : ℕ
  trace : List (Action ℕ)
  plans : ℕ

namespace FftHeap

def initial : FftHeap where
  fftwIn := none
  fftwOut := none
  power := none
  window := none
  ifftwIn := none
  ifftwOut := none
  next := 0
  trace := []
  plans := 0

/-- `fftwf_malloc`, which hands out a new block. -/
def malloc (heap : FftHeap) : ℕ × FftHeap :=
  (heap.next, { heap with
    next := heap.next + 1
    trace := heap.trace ++ [.acquire heap.next] })

def planDft (heap : FftHeap) : FftHeap := { heap with plans := heap.plans + 1 }

/-- `fftwf_free`, which does nothing with a null pointer. -/
def free (pointer : Option ℕ) (heap : FftHeap) : FftHeap :=
  match pointer with
  | none => heap
  | some block => { heap with trace := heap.trace ++ [.release (some block)] }

def allocate (heap : FftHeap) : FftHeap :=
  let (fftwIn, heap) := heap.malloc
  let (fftwOut, heap) := heap.malloc
  let heap := heap.planDft
  let (power, heap) := heap.malloc
  let (window, heap) := heap.malloc
  { heap with
    fftwIn := some fftwIn
    fftwOut := some fftwOut
    power := some power
    window := some window }

def allocateInverse (heap : FftHeap) : FftHeap :=
  let (ifftwIn, heap) := heap.malloc
  let (ifftwOut, heap) := heap.malloc
  { heap.planDft with
    ifftwIn := some ifftwIn
    ifftwOut := some ifftwOut }

/-- The end of `hackrf_sweep`; the pointers keep their values. -/
def freeAll (heap : FftHeap) : FftHeap :=
  ((((((heap.free heap.fftwIn).free heap.fftwOut).free heap.power).free
    heap.window).free heap.ifftwIn).free heap.ifftwOut)

/-- The block of an allocation. -/
def allocated : Action ℕ → Option ℕ
  | .acquire block => some block
  | _ => none

/-- What a call of `hackrf_sweep` does with the heap. -/
def hackrfSweep (ops : SweepOps F) (args : HackrfSweepArgs)
    (outs : SweepOutcomes) (globals : Globals F) (heap : FftHeap) : FftHeap :=
  match globals.checkArguments ops args with
  | (.error _, _) => heap
  | (.ok _, globals) =>
      let globals := globals.planRanges
      let heap := heap.allocate
      let heap :=
        if globals.ifftOutput then heap.allocateInverse else heap
      if (globals.setUp args outs).1 then heap.freeAll else heap

end FftHeap

/-- The service with its buffers. -/
structure HeapService (F : Type*) where
  service : Service F
  heap : FftHeap

namespace HeapService

def initial (zero : F) : HeapService F where
  service := .initial zero
  heap := .initial

def step (ops : SweepOps F) (s : HeapService F) (request : Request) :
    HeapService F where
  service := s.service.step ops request
  heap :=
    match request with
    | .sweep args outs =>
        s.heap.hackrfSweep ops args outs s.service.globals
    | _ => s.heap

def run (ops : SweepOps F) (s : HeapService F) (requests : List Request) :
    HeapService F :=
  requests.foldl (step ops) s

/-- A call whose arguments are accepted and whose set-up fails. -/
def setUpFails (ops : SweepOps F) (s : HeapService F) : Request → Bool
  | .sweep args outs =>
      match (s.service.globals.checkArguments ops args).1 with
      | .error _ => false
      | .ok _ => !((s.service.globals.prepared ops args).setUp args outs).1
  | _ => false

/-- What a request allocates, if it is a call whose set-up fails. -/
def lostBy (ops : SweepOps F) (s : HeapService F) (request : Request) :
    List ℕ :=
  if s.setUpFails ops request then
    ((s.step ops request).heap.trace.drop s.heap.trace.length).filterMap
      FftHeap.allocated
  else []

/-- What the calls of a run whose set-up fails allocate. -/
def lost (ops : SweepOps F) : HeapService F → List Request → List ℕ
  | _, [] => []
  | s, request :: rest =>
      s.lostBy ops request ++ lost ops (s.step ops request) rest

theorem run_service (ops : SweepOps F) (s : HeapService F)
    (requests : List Request) :
    (s.run ops requests).service = s.service.run ops requests := by
  induction requests generalizing s with
  | nil => rfl
  | cons request rest ih => exact ih (s.step ops request)

end HeapService

/-! ## Accepted calls and entered loops -/

/-- An accepted call begins with the setting of the gain. -/
def Event.isVgaGain : Event → Bool
  | .call _ _ (.setVgaGain _) _ => true
  | _ => false

def Event.isEnterLoop : Event → Bool
  | .enterLoop _ _ _ => true
  | _ => false

def acceptedCalls (log : List Event) : ℕ := log.countP Event.isVgaGain

def enteredLoops (log : List Event) : ℕ := log.countP Event.isEnterLoop

theorem acceptedCalls_append (first second : List Event) :
    acceptedCalls (first ++ second) =
      acceptedCalls first + acceptedCalls second :=
  List.countP_append

theorem enteredLoops_append (first second : List Event) :
    enteredLoops (first ++ second) =
      enteredLoops first + enteredLoops second :=
  List.countP_append

namespace Globals

variable {ops : SweepOps F} {args : HackrfSweepArgs} {outs : SweepOutcomes}
  {globals : Globals F}

theorem acceptedCalls_setUp (globals : Globals F) (args : HackrfSweepArgs)
    (outs : SweepOutcomes) :
    acceptedCalls (globals.setUp args outs).2 = 1 := by
  by_cases hstarts : outs.Starts
  · obtain ⟨enables, hevents, henables, -⟩ :=
      globals.setUp_of_starts args hstarts
    have hrest : acceptedCalls enables = 0 := by
      apply List.countP_eq_zero.mpr
      intro event hevent
      obtain ⟨function, result, rfl, hfunction⟩ := henables event hevent
      cases function <;> first | exact Bool.false_ne_true | cases hfunction
    rw [hevents, acceptedCalls_append, hrest]
    rfl
  · rw [setUp_of_not_starts hstarts]
    rfl

theorem enteredLoops_setUp (globals : Globals F) (args : HackrfSweepArgs)
    (outs : SweepOutcomes) :
    enteredLoops (globals.setUp args outs).2 = 0 := by
  apply List.countP_eq_zero.mpr
  intro event hevent
  have huses := globals.setUp_uses args outs event hevent
  cases event with
  | enterLoop doExit sweepStarted sweepCount => exact huses.elim
  | _ => exact Bool.false_ne_true

theorem counts_shutDown (globals : Globals F) (outs : SweepOutcomes)
    (lib : Library) :
    acceptedCalls (globals.shutDown outs lib).1 = 0 ∧
      enteredLoops (globals.shutDown outs lib).1 = 0 := by
  cases hdevice : globals.device with
  | none =>
      rw [shutDown_of_none hdevice]
      exact ⟨rfl, rfl⟩
  | some handle =>
      obtain ⟨exited, next, hshutDown, -⟩ := shutDown_of_some outs lib hdevice
      rw [hshutDown]
      exact ⟨rfl, rfl⟩

theorem counts_stream (ops : FloatOps F) (settings : Settings F)
    (outs : SweepOutcomes) (globals : Globals F) (lib : Library) :
    acceptedCalls (globals.stream ops settings outs lib).events = 0 ∧
      enteredLoops (globals.stream ops settings outs lib).events = 1 := by
  obtain ⟨asked, hevents, hasked⟩ := stream_events ops settings outs lib globals
  obtain ⟨haccepted, hentered⟩ := globals.counts_shutDown outs lib
  have hcounts : acceptedCalls asked = 0 ∧ enteredLoops asked = 0 := by
    constructor <;>
    · apply List.countP_eq_zero.mpr
      intro event hevent
      obtain ⟨result, rfl⟩ := hasked event hevent
      exact Bool.false_ne_true
  rw [hevents, acceptedCalls_append, enteredLoops_append, haccepted, hentered]
  unfold acceptedCalls enteredLoops at *
  constructor
  · rw [List.countP_cons_of_neg Bool.false_ne_true, hcounts.1]
  · rw [List.countP_cons_of_pos rfl, hcounts.2]

/-- What a call adds to the log: an accepted one sets the gain once, and
enters the loop unless its set-up fails. -/
theorem counts_hackrfSweep (ops : SweepOps F) (args : HackrfSweepArgs)
    (outs : SweepOutcomes) (globals : Globals F) (lib : Library) :
    ((∃ error, (globals.checkArguments ops args).1 = .error error) ∧
        acceptedCalls (globals.hackrfSweep ops args outs lib).events = 0 ∧
        enteredLoops (globals.hackrfSweep ops args outs lib).events = 0) ∨
      (∃ fftSize, (globals.checkArguments ops args).1 = .ok fftSize) ∧
        acceptedCalls (globals.hackrfSweep ops args outs lib).events = 1 ∧
        enteredLoops (globals.hackrfSweep ops args outs lib).events =
          if ((globals.prepared ops args).setUp args outs).1 then 1 else 0 := by
  cases hcheck : (globals.checkArguments ops args).1 with
  | error error =>
      rw [hackrfSweep_of_error hcheck]
      exact .inl ⟨⟨error, rfl⟩, rfl, rfl⟩
  | ok fftSize =>
      have haccepted :=
        (globals.prepared ops args).acceptedCalls_setUp args outs
      have hentered :=
        (globals.prepared ops args).enteredLoops_setUp args outs
      refine .inr ⟨⟨fftSize, rfl⟩, ?_⟩
      cases hsetUp : ((globals.prepared ops args).setUp args outs).1 with
      | false =>
          rw [hackrfSweep_of_failure hcheck hsetUp]
          exact ⟨haccepted, hentered⟩
      | true =>
          obtain ⟨hnone, hone⟩ := counts_stream ops.toFloatOps
            ((globals.prepared ops args).settings fftSize) outs
            (globals.prepared ops args) lib
          rw [hackrfSweep_of_success hcheck hsetUp, acceptedCalls_append,
            enteredLoops_append, haccepted, hentered, hnone, hone]
          exact ⟨rfl, rfl⟩

/-- The stored ranges are never forgotten, and one is added by every call that
is accepted. -/
theorem numRanges_hackrfSweep (ops : SweepOps F) (args : HackrfSweepArgs)
    (outs : SweepOutcomes) (globals : Globals F) (lib : Library)
    (hranges : globals.numRanges ≤ maxSweepRanges) :
    globals.numRanges ≤
        (globals.hackrfSweep ops args outs lib).globals.numRanges ∧
      (globals.hackrfSweep ops args outs lib).globals.numRanges ≤
        maxSweepRanges ∧
      ((∃ fftSize, (globals.checkArguments ops args).1 = .ok fftSize) →
        (globals.hackrfSweep ops args outs lib).globals.numRanges =
          globals.numRanges + 1) ∧
      (globals.hackrfSweep ops args outs lib).globals.ifftOutput =
        globals.ifftOutput := by
  rcases globals.checkArguments_cases ops args with
    ⟨error, -, hchecked⟩ | ⟨range, fftSize, window, -, hok, hchecked⟩
  · have hcheck : (globals.checkArguments ops args).1 = .error error := by
      rw [hchecked]
    rw [hackrfSweep_of_error hcheck, hchecked]
    refine ⟨le_rfl, hranges, ?_, rfl⟩
    rintro ⟨fftSize, hok⟩
    cases hok
  · obtain ⟨-, -, hroom, -⟩ := checkRange_ok hok
    have hstored : (globals.checkArguments ops args).2.numRanges =
        globals.numRanges + 1 := by
      rw [hchecked]
      rfl
    have hprepared := prepared_numRanges hok ops
    have hifft : (globals.checkArguments ops args).2.ifftOutput =
        globals.ifftOutput := by
      rw [hchecked]
      rfl
    obtain ⟨stepCount, frequencies, hplan⟩ :=
      (globals.checkArguments ops args).2.planRanges_frame
    rcases globals.hackrfSweep_globals ops args outs lib with
      ⟨error, -, hsweep⟩ | ⟨-, rx, fd, -, hsweep⟩
    · rw [hsweep, hstored, hifft]
      exact ⟨Nat.le_succ _, hroom, fun _ => rfl, rfl⟩
    · have hnumRanges :
          (globals.hackrfSweep ops args outs lib).globals.numRanges =
            globals.numRanges + 1 := by
        rw [hsweep]
        exact hprepared
      have hkept :
          (globals.hackrfSweep ops args outs lib).globals.ifftOutput =
            globals.ifftOutput := by
        rw [hsweep]
        simp only [setRx, prepared]
        rw [hplan]
        exact hifft
      rw [hnumRanges, hkept]
      exact ⟨Nat.le_succ _, hroom, fun _ => rfl, rfl⟩

end Globals

/-! ## The heap -/

namespace FftHeap

variable {heap : FftHeap} {live : List ℕ}

@[simp] theorem free_plans (pointer : Option ℕ) :
    (heap.free pointer).plans = heap.plans := by
  cases pointer <;> rfl

@[simp] theorem free_ifftwIn (pointer : Option ℕ) :
    (heap.free pointer).ifftwIn = heap.ifftwIn := by
  cases pointer <;> rfl

@[simp] theorem free_ifftwOut (pointer : Option ℕ) :
    (heap.free pointer).ifftwOut = heap.ifftwOut := by
  cases pointer <;> rfl

@[simp] theorem free_next (pointer : Option ℕ) :
    (heap.free pointer).next = heap.next := by
  cases pointer <;> rfl

@[simp] theorem free_allocated (pointer : Option ℕ) :
    (heap.free pointer).trace.filterMap allocated =
      heap.trace.filterMap allocated := by
  cases pointer <;> simp [free, allocated]

theorem freeAll_plans : heap.freeAll.plans = heap.plans := by
  simp [freeAll]

theorem freeAll_ifftwIn : heap.freeAll.ifftwIn = heap.ifftwIn := by
  simp [freeAll]

theorem freeAll_ifftwOut : heap.freeAll.ifftwOut = heap.ifftwOut := by
  simp [freeAll]

/-- No block is handed out twice. -/
def Fresh (heap : FftHeap) : Prop :=
  heap.trace.filterMap allocated = List.range heap.next

theorem Fresh.freeAll (hfresh : heap.Fresh) : heap.freeAll.Fresh := by
  simpa [Fresh, FftHeap.freeAll] using hfresh

theorem Fresh.count_acquire (hfresh : heap.Fresh) (block : ℕ) :
    heap.trace.count (.acquire block) ≤ 1 := by
  have hcount : ∀ trace : List (Action ℕ),
      trace.count (.acquire block) =
        (trace.filterMap allocated).count block := by
    intro trace
    induction trace with
    | nil => rfl
    | cons action rest ih =>
        cases action with
        | acquire other => simp [allocated, List.count_cons, ih]
        | use pointer => simpa [allocated, List.filterMap_cons] using ih
        | release pointer => simpa [allocated, List.filterMap_cons] using ih
  rw [hcount, hfresh]
  exact List.nodup_iff_count_le_one.mp List.nodup_range block

/-- The blocks which the trace leaves allocated, if it frees only such. -/
def Holds (heap : FftHeap) (live : List ℕ) : Prop :=
  EventRun.run HandleTrace.step [] heap.trace = some live

theorem Holds.malloc (hholds : heap.Holds live) :
    heap.malloc.2.Holds (heap.next :: live) := by
  unfold Holds at hholds
  simp [Holds, FftHeap.malloc, EventRun.run_append, hholds, HandleTrace.step]

theorem Holds.allocate (hholds : heap.Holds live) :
    heap.allocate.Holds ([heap.next + 3, heap.next + 2, heap.next + 1,
      heap.next] ++ live) :=
  hholds.malloc.malloc.malloc.malloc

theorem Holds.free (hholds : heap.Holds live) {block : ℕ}
    (hmem : block ∈ live) :
    (heap.free (some block)).Holds (live.erase block) := by
  unfold Holds at hholds
  simp [Holds, FftHeap.free, EventRun.run_append, hholds, HandleTrace.step,
    hmem]

theorem allocate_trace : heap.allocate.trace = heap.trace ++
    [.acquire heap.next, .acquire (heap.next + 1), .acquire (heap.next + 2),
      .acquire (heap.next + 3)] := by
  simp [FftHeap.allocate, FftHeap.malloc, planDft]

theorem allocated_allocate :
    (heap.allocate.trace.drop heap.trace.length).filterMap allocated =
      [heap.next, heap.next + 1, heap.next + 2, heap.next + 3] := by
  rw [allocate_trace, List.drop_left]
  rfl

theorem Fresh.allocate (hfresh : heap.Fresh) : heap.allocate.Fresh := by
  have hnext : heap.allocate.next = heap.next + 4 := rfl
  rw [Fresh, allocate_trace, List.filterMap_append, hfresh, hnext]
  simp [allocated, List.range_succ]

/-- No block is freed twice. -/
theorem Holds.count_release (hholds : heap.Holds live) (hfresh : heap.Fresh)
    (block : ℕ) : heap.trace.count (.release (some block)) ≤ 1 := by
  have hcount := run_count hholds block
  have honce := hfresh.count_acquire block
  rw [List.count_nil, Nat.zero_add] at hcount
  omega

/-- What has just been allocated is what is freed. -/
theorem Holds.freeAll (hholds : heap.Holds live)
    (hinverse : heap.ifftwIn = none ∧ heap.ifftwOut = none) :
    heap.allocate.freeAll.Holds live := by
  have hin := (hholds.allocate).free
    (show heap.next ∈ _ by simp)
  have hout := hin.free (show heap.next + 1 ∈ _ by simp)
  have hpower := hout.free (show heap.next + 2 ∈ _ by simp)
  have hwindow := hpower.free (show heap.next + 3 ∈ _ by simp)
  have hfreed : heap.allocate.freeAll =
      (((heap.allocate.free (some heap.next)).free
        (some (heap.next + 1))).free (some (heap.next + 2))).free
          (some (heap.next + 3)) := by
    obtain ⟨hnoIn, hnoOut⟩ := hinverse
    simp [FftHeap.freeAll, FftHeap.free, FftHeap.allocate, FftHeap.malloc,
      planDft, hnoIn, hnoOut]
  rw [hfreed]
  simpa using hwindow

theorem hackrfSweep_of_error {ops : SweepOps F} {args : HackrfSweepArgs}
    {globals : Globals F} {error : ArgumentError}
    (hcheck : (globals.checkArguments ops args).1 = .error error)
    (outs : SweepOutcomes) (heap : FftHeap) :
    heap.hackrfSweep ops args outs globals = heap := by
  unfold hackrfSweep
  rcases hchecked : globals.checkArguments ops args with ⟨result, next⟩
  rw [hchecked] at hcheck
  obtain rfl : result = .error error := hcheck
  rfl

theorem hackrfSweep_of_accepted {ops : SweepOps F} {args : HackrfSweepArgs}
    {globals : Globals F} {fftSize : FftSize}
    (hcheck : (globals.checkArguments ops args).1 = .ok fftSize)
    (hifft : globals.ifftOutput = false) (outs : SweepOutcomes)
    (heap : FftHeap) :
    heap.hackrfSweep ops args outs globals =
      if ((globals.prepared ops args).setUp args outs).1 then
        heap.allocate.freeAll
      else heap.allocate := by
  have hprepared : (globals.prepared ops args).ifftOutput = false := by
    obtain ⟨_, _, _, _, _, hframe⟩ := globals.prepared_frame ops args
    rw [hframe]
    exact hifft
  unfold Globals.prepared at *
  unfold hackrfSweep
  rcases hchecked : globals.checkArguments ops args with ⟨result, next⟩
  rw [hchecked] at hcheck hprepared
  obtain rfl : result = .ok fftSize := hcheck
  dsimp only at hprepared ⊢
  rw [hprepared]
  rfl

end FftHeap

/-! ## Runs -/

namespace HeapService

variable {ops : SweepOps F} {s : HeapService F}

/-- The account of the buffers: four are lost with every accepted call that
did not get to its loop. -/
structure Balanced (s : HeapService F) (live : List ℕ) : Prop where
  holds : s.heap.Holds live
  fresh : s.heap.Fresh
  inverse : s.heap.ifftwIn = none ∧ s.heap.ifftwOut = none
  ifftOutput : s.service.globals.ifftOutput = false
  count : live.length + 4 * enteredLoops s.service.log =
    4 * acceptedCalls s.service.log
  plans : s.heap.plans = acceptedCalls s.service.log
  accepted : acceptedCalls s.service.log ≤ s.service.globals.numRanges
  ranges : s.service.globals.numRanges ≤ maxSweepRanges

theorem counts_hackRFSweepThread (serialNumber : Bool)
    (outs : OpenThreadOutcomes) (globals : Globals F) (lib : Library) :
    acceptedCalls (globals.hackRFSweepThread serialNumber outs lib).1 = 0 ∧
      enteredLoops (globals.hackRFSweepThread serialNumber outs lib).1 = 0 := by
  unfold Globals.hackRFSweepThread
  dsimp only
  split_ifs <;> exact ⟨rfl, rfl⟩

theorem lostBy_sweep_of_error {args : HackrfSweepArgs} {error : ArgumentError}
    (hcheck : (s.service.globals.checkArguments ops args).1 = .error error)
    (outs : SweepOutcomes) : s.lostBy ops (.sweep args outs) = [] := by
  simp [lostBy, setUpFails, hcheck]

theorem lostBy_sweep_of_ok {args : HackrfSweepArgs} {fftSize : FftSize}
    (hcheck : (s.service.globals.checkArguments ops args).1 = .ok fftSize)
    (hifft : s.service.globals.ifftOutput = false) (outs : SweepOutcomes) :
    s.lostBy ops (.sweep args outs) =
      if ((s.service.globals.prepared ops args).setUp args outs).1 then []
      else [s.heap.next, s.heap.next + 1, s.heap.next + 2,
        s.heap.next + 3] := by
  have hheap := FftHeap.hackrfSweep_of_accepted hcheck hifft outs s.heap
  unfold lostBy setUpFails
  simp only [hcheck, HeapService.step, hheap]
  cases hsetUp : ((s.service.globals.prepared ops args).setUp args outs).1 with
  | true => rfl
  | false => exact FftHeap.allocated_allocate

theorem Balanced.sweep {live : List ℕ} (hbalanced : s.Balanced live)
    (args : HackrfSweepArgs) (outs : SweepOutcomes) :
    ∃ live', (s.step ops (.sweep args outs)).Balanced live' ∧
      live'.Perm (s.lostBy ops (.sweep args outs) ++ live) := by
  obtain ⟨hmore, hmax, honce, hifft⟩ := Globals.numRanges_hackrfSweep ops args
    outs s.service.globals s.service.library hbalanced.ranges
  have hoff := hifft.trans hbalanced.ifftOutput
  have hcount := hbalanced.count
  have haccepted := hbalanced.accepted
  rcases s.service.globals.counts_hackrfSweep ops args outs s.service.library
    with ⟨⟨error, hcheck⟩, hcalls, hloops⟩ | ⟨⟨fftSize, hcheck⟩, hcalls, hloops⟩
  · have hheap := FftHeap.hackrfSweep_of_error hcheck outs s.heap
    rw [lostBy_sweep_of_error hcheck]
    refine ⟨live, ⟨?_, ?_, ?_, hoff, ?_, ?_, ?_, hmax⟩, .refl _⟩
    · simp only [HeapService.step, hheap]
      exact hbalanced.holds
    · simp only [HeapService.step, hheap]
      exact hbalanced.fresh
    · simp only [HeapService.step, hheap]
      exact hbalanced.inverse
    · simp only [HeapService.step, Service.step, enteredLoops_append,
        acceptedCalls_append, hcalls, hloops]
      exact hcount
    · simp only [HeapService.step, hheap, Service.step, acceptedCalls_append,
        hcalls]
      exact hbalanced.plans
    · simp only [HeapService.step, Service.step, acceptedCalls_append, hcalls]
      exact haccepted.trans hmore
  · have hheap := FftHeap.hackrfSweep_of_accepted hcheck hbalanced.ifftOutput
      outs s.heap
    have hlost := lostBy_sweep_of_ok hcheck hbalanced.ifftOutput outs
    have hone := honce ⟨fftSize, hcheck⟩
    have hlog : acceptedCalls (s.step ops (.sweep args outs)).service.log ≤
        (s.step ops (.sweep args outs)).service.globals.numRanges := by
      simp only [HeapService.step, Service.step, acceptedCalls_append, hcalls,
        hone]
      omega
    cases hsetUp :
        ((s.service.globals.prepared ops args).setUp args outs).1 with
    | true =>
        rw [hsetUp, if_pos rfl] at hheap hloops hlost
        rw [hlost]
        refine ⟨live, ⟨?_, ?_, ?_, hoff, ?_, ?_, hlog, hmax⟩, .refl _⟩
        · simp only [HeapService.step, hheap]
          exact hbalanced.holds.freeAll hbalanced.inverse
        · simp only [HeapService.step, hheap]
          exact hbalanced.fresh.allocate.freeAll
        · simp only [HeapService.step, hheap, FftHeap.freeAll_ifftwIn,
            FftHeap.freeAll_ifftwOut]
          exact hbalanced.inverse
        · simp only [HeapService.step, Service.step, enteredLoops_append,
            acceptedCalls_append, hcalls, hloops]
          omega
        · simp only [HeapService.step, hheap, Service.step,
            acceptedCalls_append, hcalls, FftHeap.freeAll_plans]
          exact congrArg (· + 1) hbalanced.plans
    | false =>
        rw [hsetUp, if_neg Bool.false_ne_true] at hheap hloops hlost
        rw [hlost]
        refine ⟨[s.heap.next + 3, s.heap.next + 2, s.heap.next + 1,
          s.heap.next] ++ live, ⟨?_, ?_, ?_, hoff, ?_, ?_, hlog, hmax⟩, ?_⟩
        · simp only [HeapService.step, hheap]
          exact hbalanced.holds.allocate
        · simp only [HeapService.step, hheap]
          exact hbalanced.fresh.allocate
        · simp only [HeapService.step, hheap]
          exact hbalanced.inverse
        · simp only [HeapService.step, Service.step, enteredLoops_append,
            acceptedCalls_append, hcalls, hloops, List.length_append,
            List.length_cons, List.length_nil]
          omega
        · simp only [HeapService.step, hheap, Service.step,
            acceptedCalls_append, hcalls]
          exact congrArg (· + 1) hbalanced.plans
        · exact (List.reverse_perm [s.heap.next, s.heap.next + 1,
            s.heap.next + 2, s.heap.next + 3]).append_right live

theorem Balanced.step {live : List ℕ} (hbalanced : s.Balanced live)
    (request : Request) :
    ∃ live', (s.step ops request).Balanced live' ∧
      live'.Perm (s.lostBy ops request ++ live) := by
  cases request with
  | sweep args outs => exact hbalanced.sweep args outs
  | signal =>
      exact ⟨live, ⟨hbalanced.holds, hbalanced.fresh, hbalanced.inverse,
        hbalanced.ifftOutput, hbalanced.count, hbalanced.plans,
        hbalanced.accepted, hbalanced.ranges⟩, .refl _⟩
  | «open» serialNumber outs =>
      obtain ⟨device, hopen⟩ := s.service.open_globals ops serialNumber outs
      obtain ⟨haccepted, hentered⟩ := counts_hackRFSweepThread serialNumber
        outs s.service.globals s.service.library
      have hlog : acceptedCalls
            (s.step ops (.open serialNumber outs)).service.log =
          acceptedCalls s.service.log := by
        simp only [HeapService.step, Service.step, acceptedCalls_append,
          haccepted, Nat.add_zero]
      have hloops : enteredLoops
            (s.step ops (.open serialNumber outs)).service.log =
          enteredLoops s.service.log := by
        simp only [HeapService.step, Service.step, enteredLoops_append,
          hentered, Nat.add_zero]
      refine ⟨live, ⟨hbalanced.holds, hbalanced.fresh, hbalanced.inverse, ?_,
        ?_, ?_, ?_, ?_⟩, .refl _⟩
      · simp only [HeapService.step, hopen]
        exact hbalanced.ifftOutput
      · rw [hlog, hloops]
        exact hbalanced.count
      · rw [hlog]
        exact hbalanced.plans
      · rw [hlog]
        simp only [HeapService.step, hopen]
        exact hbalanced.accepted
      · simp only [HeapService.step, hopen]
        exact hbalanced.ranges

theorem Balanced.run {live : List ℕ} (hbalanced : s.Balanced live)
    (requests : List Request) :
    ∃ live', (s.run ops requests).Balanced live' ∧
      live'.Perm (s.lost ops requests ++ live) := by
  induction requests generalizing s live with
  | nil => exact ⟨live, hbalanced, .refl _⟩
  | cons request rest ih =>
      obtain ⟨next, hnext, hlost⟩ :=
        @Balanced.step F ops s live hbalanced request
      obtain ⟨final, hfinal, hrest⟩ := ih hnext
      refine ⟨final, hfinal, ?_⟩
      rw [lost, List.append_assoc]
      exact (hrest.trans (hlost.append_left _)).trans
        (List.perm_append_comm_assoc _ _ _)

theorem balanced_initial (zero : F) : (HeapService.initial zero).Balanced [] where
  holds := rfl
  fresh := rfl
  inverse := ⟨rfl, rfl⟩
  ifftOutput := rfl
  count := rfl
  plans := rfl
  accepted := Nat.zero_le _
  ranges := Nat.zero_le _

/-- In every run of the service only allocated FFT buffers are freed, and none
twice; those which are never freed are exactly what the accepted calls whose
set-up failed have allocated, four each; the plan of every accepted call is
left; and at most ten calls are ever accepted. -/
theorem buffers_of_run (ops : SweepOps F) (zero : F)
    (requests : List Request) :
    let final := (HeapService.initial zero).run ops requests
    final.service = (Service.initial zero).run ops requests ∧
      (∀ block, final.heap.trace.count (.release (some block)) ≤ 1) ∧
      (∃ live, final.heap.Holds live ∧
        live.Perm ((HeapService.initial zero).lost ops requests) ∧
        live.length + 4 * enteredLoops final.service.log =
          4 * acceptedCalls final.service.log) ∧
      final.heap.plans = acceptedCalls final.service.log ∧
      acceptedCalls final.service.log ≤ maxSweepRanges := by
  intro final
  obtain ⟨live, hbalanced, hlost⟩ :=
    @Balanced.run F ops _ [] (balanced_initial zero) requests
  rw [List.append_nil] at hlost
  exact ⟨run_service ops _ requests,
    fun block => hbalanced.holds.count_release hbalanced.fresh block,
    ⟨live, hbalanced.holds, hlost, hbalanced.count⟩, hbalanced.plans,
    hbalanced.accepted.trans hbalanced.ranges⟩

end HeapService

end HackRF.Sweep
