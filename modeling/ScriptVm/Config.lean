import ScriptVm.Error
import ScriptVm.Json

/-!
# Settings of a machine
-/
namespace ScriptVm

/-- Settings fixed when a machine is made. -/
structure Config where
  /-- A collector of its own runs beside the host. -/
  collectorThread : Bool := false
  /-- Units of work in one collector step. -/
  stepBudget : UInt32 := 32
  /-- Milliseconds of work in one round of the collector's own run. -/
  timeSlice : UInt32 := 8
  /-- Milliseconds between two rounds. -/
  timeWait : UInt32 := 3
  /-- Every completed collection is journalled. -/
  reportCollections : Bool := false
  /-- The greatest length of an array made by an instruction. -/
  arrayLimit : UInt32 := 16777216
  deriving DecidableEq, Repr, Inhabited

namespace Config

/-- A collector step does at least one unit of work. -/
def check (config : Config) : Except Error Unit :=
  if config.stepBudget = 0 then .error .invalidArgument else .ok ()

/-- The written names of the settings. -/
def fields : List String :=
  ["gc_thread_enabled", "gc_max_iteration_count", "gc_time_slice_ms", "gc_time_wait_ms",
    "report_gc_stats", "max_array_length"]

/-- A written setting, or its default when it is left out. -/
def setting? {α : Type} (read? : Json → Option α) (default : α) : Option Json → Option α
  | none => some default
  | some tree => read? tree

/-- A written 32-bit number. -/
def word? (tree : Json) : Option UInt32 :=
  (tree.nat? UInt32.size).map UInt32.ofNat

/-- The settings that a tree describes. -/
def ofTree? (tree : Json) : Option Config := do
  let unset : Config := {}
  match ← tree.record? ⟨false, true⟩ fields with
  | [thread, budget, slice, wait, report, limit] =>
    return {
      collectorThread := ← setting? Json.bool? unset.collectorThread thread
      stepBudget := ← setting? word? unset.stepBudget budget
      timeSlice := ← setting? word? unset.timeSlice slice
      timeWait := ← setting? word? unset.timeWait wait
      reportCollections := ← setting? Json.bool? unset.reportCollections report
      arrayLimit := ← setting? word? unset.arrayLimit limit }
  | _ => none

/-- The settings written by a text; what is left out has its default. -/
def parse (text : String) : Except Error Config := do
  let config ← Error.invalidArgument.orElse (Json.parse? text >>= ofTree?)
  config.check
  return config

end Config

end ScriptVm
