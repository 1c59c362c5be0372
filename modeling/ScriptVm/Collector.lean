import ScriptVm.Heap.Mark

/-!
# The incremental collector

A collection goes through eight phases: pending proxies become active, marks are cleared, the four
categories of roots are marked one after the other, unmarked proxies are condemned, and condemned
proxies are disposed of. One step does a bounded number of units of work inside one phase, so the
embedding program and scripts run between steps. While roots are being marked, whatever is stored
or allocated is marked at once.
-/
namespace ScriptVm

/-- A source of roots. -/
inductive RootCategory where
  | constants
  | globals
  | functions
  | executions
  deriving DecidableEq, Repr, Inhabited

/-- The roots of each category. -/
abbrev RootSet := RootCategory → List Handle

/-- A phase of a collection. -/
inductive Phase where
  | linkPending
  | resetState
  | mark (category : RootCategory)
  | collect
  | dispose
  deriving DecidableEq, Repr, Inhabited

namespace Phase

/-- Every phase in order. -/
def all : List Phase :=
  [.linkPending, .resetState, .mark .constants, .mark .globals, .mark .functions,
    .mark .executions, .collect, .dispose]

/-- The phase after a phase; the last is followed by the first. -/
def next : Phase → Phase
  | .linkPending => .resetState
  | .resetState => .mark .constants
  | .mark .constants => .mark .globals
  | .mark .globals => .mark .functions
  | .mark .functions => .mark .executions
  | .mark .executions => .collect
  | .collect => .dispose
  | .dispose => .linkPending

/-- The name of a phase. -/
def name : Phase → String
  | .linkPending => "LinkPending"
  | .resetState => "ResetState"
  | .mark .constants => "MarkConstants"
  | .mark .globals => "MarkGlobals"
  | .mark .functions => "MarkFunctions"
  | .mark .executions => "MarkExecutions"
  | .collect => "Collect"
  | .dispose => "Dispose"

/-- The phase with a name. -/
def ofName? (name : String) : Option Phase := all.find? fun phase => phase.name = name

end Phase

/-- What collections have done so far. -/
structure CollectorStats where
  /-- Completed collections. -/
  collections : Nat := 0
  /-- Proxies disposed of by completed collections. -/
  totalDisposed : Nat := 0
  /-- Proxies disposed of by the last completed collection. -/
  lastDisposed : Nat := 0
  /-- Proxies alive at the end of the last completed collection. -/
  liveCount : Nat := 0
  deriving DecidableEq, Repr, Inhabited

/-- The collection under way. -/
structure Cycle where
  /-- Where it is. -/
  phase : Phase := .linkPending
  /-- The roots of a mark phase are on the worklist. -/
  rootsTaken : Bool := false
  /-- Handles to be marked, the next one first. -/
  worklist : List Handle := []
  /-- Proxies disposed of so far. -/
  disposed : Nat := 0
  deriving DecidableEq, Repr, Inhabited

/-- Roots are being marked: from the first step of the first mark phase to the end of the last. -/
def Cycle.marking (cycle : Cycle) : Bool :=
  match cycle.phase with
  | .mark .constants => cycle.rootsTaken
  | .mark _ => true
  | _ => false

namespace Heap

/-- Ends a pass over the active proxies: the kept ones are ahead again. -/
def rewind (heap : Heap) : Heap :=
  { heap with active := heap.activeSlots, kept := [] }

/-- Moves up to a number of pending proxies, last allocated first, to the end of the active ones,
all of which count as kept meanwhile. True when none is left, which ends the pass. -/
def linkPending (heap : Heap) (budget : Nat) : Bool × Heap :=
  let batch := heap.pending.take budget
  let heap := { heap with
    pending := heap.pending.drop budget
    active := []
    kept := batch.reverse ++ (heap.active.reverse ++ heap.kept) }
  let heap := heap.updateAll batch ({ · with residence := .active })
  if heap.pending.isEmpty then (true, heap.rewind) else (false, heap)

/-- Ends a pass when nothing is ahead. -/
def endPass (heap : Heap) : Bool × Heap :=
  if heap.active.isEmpty then (true, heap.rewind) else (false, heap)

/-- The proxy in a slot is marked. -/
def isMarkedAt (heap : Heap) (index : Nat) : Bool :=
  match heap.slots[index]? with
  | some ⟨_, some proxy⟩ => proxy.marked
  | _ => false

/-- The proxy in a slot is pinned. -/
def isPinnedAt (heap : Heap) (index : Nat) : Bool :=
  match heap.slots[index]? with
  | some ⟨_, some proxy⟩ => proxy.pinned
  | _ => false

/-- Clears the marks of up to a number of active proxies. True when none is ahead; the handles of
the pinned ones are returned, last first. -/
def resetMarks (heap : Heap) (budget : Nat) : Bool × Heap × List Handle :=
  let batch := heap.active.take budget
  let heap := { heap with
    active := heap.active.drop budget, kept := batch.reverse ++ heap.kept }
  let (done, heap) := (heap.updateAll batch ({ · with marked := false })).endPass
  (done, heap, ((batch.filter heap.isPinnedAt).map heap.handleAt).reverse)

/-- Condemns the unmarked ones among up to a number of active proxies. True when none is ahead. -/
def collectSome (heap : Heap) (budget : Nat) : Bool × Heap :=
  let batch := heap.active.take budget
  let (marked, condemned) := batch.partition heap.isMarkedAt
  let heap := { heap with
    active := heap.active.drop budget
    kept := marked.reverse ++ heap.kept
    unmarked := condemned.reverse ++ heap.unmarked }
  (heap.updateAll condemned ({ · with residence := .unmarked })).endPass

/-- Empties a slot and takes it to its next generation. -/
def vacate (slots : Array Slot) (index : Nat) : Array Slot :=
  slots.modify index fun slot => ⟨slot.generation + 1, none⟩

/-- Disposes of up to a number of condemned proxies, last condemned first: how many, and whether
none is left. -/
def disposeSome (heap : Heap) (budget : Nat) : Nat × Bool × Heap :=
  let batch := heap.unmarked.take budget
  let heap := { heap with
    slots := batch.foldl vacate heap.slots
    free := batch.reverse ++ heap.free
    unmarked := heap.unmarked.drop budget }
  (batch.length, heap.unmarked.isEmpty, heap)

end Heap

/-- The heap with its collector. -/
structure Collector where
  /-- The heap. -/
  heap : Heap
  /-- The collection under way. -/
  cycle : Cycle
  /-- What collections have done. -/
  stats : CollectorStats
  /-- Units of work in one step. -/
  budget : Nat
  deriving DecidableEq, Repr, Inhabited

namespace Collector

/-- A fresh collector, whose steps do at least one unit of work. -/
def create (budget : Nat) : Collector := ⟨Heap.empty, {}, {}, max budget 1⟩

/-- Roots are being marked. -/
def marking (collector : Collector) : Bool := collector.cycle.marking

/-- Marks a handle and all that is reached from it, while roots are being marked. -/
def shade (collector : Collector) (handle : Handle) : Collector :=
  if collector.marking then { collector with heap := collector.heap.markAll [handle] }
  else collector

/-- Allocates a proxy; what it refers to outlives the marking under way. -/
def allocate (collector : Collector) (cell : Cell) (pinned : Bool) : Handle × Collector :=
  let { heap, cycle, stats, budget } := collector
  let (handle, heap) := heap.allocate cell pinned
  (handle, shade ⟨heap, cycle, stats, budget⟩ handle)

/-- Goes to the next phase. -/
def advance (collector : Collector) : Collector :=
  { collector with cycle := { collector.cycle with
    phase := collector.cycle.phase.next, rootsTaken := false } }

/-- The handles of a category of roots, last first. The last category includes the pending proxies,
so that what was allocated during a collection outlives it. -/
def takeRoots (heap : Heap) (roots : RootSet) (category : RootCategory) : List Handle :=
  match category with
  | .executions => heap.pending.map heap.handleAt ++ (roots .executions).reverse
  | category => (roots category).reverse

/-- The work of one step, and whether it ends its phase. The phase stays the same. -/
def work (collector : Collector) (roots : RootSet) : Bool × Collector :=
  let { heap, cycle, stats, budget } := collector
  match cycle.phase with
  | .linkPending =>
    let (done, heap) := heap.linkPending budget
    (done, ⟨heap, cycle, stats, budget⟩)
  | .resetState =>
    let (done, heap, pinned) := heap.resetMarks budget
    (done, ⟨heap, { cycle with worklist := pinned ++ cycle.worklist }, stats, budget⟩)
  | .mark category =>
    let worklist :=
      if cycle.rootsTaken then cycle.worklist
      else cycle.worklist ++ takeRoots heap roots category
    let (done, heap, worklist) := heap.markSome budget worklist
    (done, ⟨heap, { cycle with rootsTaken := true, worklist }, stats, budget⟩)
  | .collect =>
    let (done, heap) := heap.collectSome budget
    (done, ⟨heap, cycle, stats, budget⟩)
  | .dispose =>
    let (count, done, heap) := heap.disposeSome budget
    (done, ⟨heap, { cycle with disposed := cycle.disposed + count }, stats, budget⟩)

/-- Counts a completed collection. -/
def complete (collector : Collector) : Collector :=
  let disposed := collector.cycle.disposed
  { collector with
    cycle := { collector.cycle with disposed := 0 }
    stats := {
      collections := collector.stats.collections + 1
      totalDisposed := collector.stats.totalDisposed + disposed
      lastDisposed := disposed
      liveCount := collector.heap.liveCount } }

/-- One step. True when it completes a collection. -/
def step (collector : Collector) (roots : RootSet) : Bool × Collector :=
  let (done, worked) := collector.work roots
  if done then
    if worked.cycle.phase = .dispose then (true, worked.advance.complete)
    else (false, worked.advance)
  else (false, worked)

/-- Steps until one completes a collection, or until the fuel is used up. -/
def runSteps (roots : RootSet) : Nat → Collector → Collector
  | 0, collector => collector
  | fuel + 1, collector =>
    let (completed, collector) := collector.step roots
    if completed then collector else runSteps roots fuel collector

/-- A bound on the steps to the end of a collection: in each phase every step but the last does at
least one unit of work, and the units are counted by the slots, the roots and the references. -/
def stepBound (collector : Collector) (roots : RootSet) : Nat :=
  let references := collector.heap.slots.foldl (fun count slot =>
    match slot.proxy with
    | some proxy => count + proxy.cell.children.length
    | none => count) 0
  let rootCount := (roots .constants).length + (roots .globals).length +
    (roots .functions).length + (roots .executions).length
  8 + 6 * collector.heap.slots.size + collector.cycle.worklist.length + rootCount + references

/-- Steps until the collection under way is complete. -/
def run (collector : Collector) (roots : RootSet) : Collector :=
  runSteps roots (collector.stepBound roots) collector

/-- Gives up the collection under way. Condemned proxies stay condemned. -/
def reset (collector : Collector) : Collector :=
  { collector with heap := collector.heap.rewind, cycle := {} }

end Collector

end ScriptVm
