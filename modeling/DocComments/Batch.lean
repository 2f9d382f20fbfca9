import DocComments.Request
import DocComments.Template

/-! Batches of requests. Requests for different names go to a generator in groups, with a pause between
groups; the calls of a group run side by side and may end in any order. -/
namespace DocComments

/-- How a call of a generator ends. -/
inductive Outcome where
  | text (text : String)
  /-- The generator reports a failure. -/
  | failed
  /-- The task that made the call dies. -/
  | died
  deriving DecidableEq, Repr

def Outcome.text? : Outcome → Option String
  | text t => some t
  | _ => none

abbrev Generator := DocRequest → Style → Outcome

def templateGenerator : Generator := fun r style => .text (Template.render style r)

/-- How many calls run side by side, and the pause between groups. -/
structure BatchOptions where
  concurrency : Nat
  delayMs : Nat
  deriving DecidableEq, Repr

namespace Batch

def defaultOptions : BatchOptions := ⟨5, 1000⟩

def groupSize (options : BatchOptions) : Nat :=
  max options.concurrency 1

/-- The requests whose name is not among those seen and did not come before. -/
def firstOfNameFrom (seen : List String) : List DocRequest → List DocRequest
  | [] => []
  | r :: rest =>
    if seen.contains r.name then firstOfNameFrom seen rest
    else r :: firstOfNameFrom (r.name :: seen) rest

def firstOfName (requests : List DocRequest) : List DocRequest :=
  firstOfNameFrom [] requests

/-- Cuts a list into groups of at most `size`. The first argument bounds the number of groups. -/
def groups {α : Type} (size : Nat) : Nat → List α → List (List α)
  | 0, _ => []
  | _, [] => []
  | bound + 1, a :: rest => (a :: rest).take size :: groups size bound ((a :: rest).drop size)

abbrev Call := Nat × DocRequest

/-- The order in which the calls of a group end. -/
abbrev Schedule := List Call → List Call

/-- Puts the answer of an ended call into its place. -/
def settle (generate : DocRequest → Outcome) (slots : List (Option GeneratedDoc)) (call : Call) :
    List (Option GeneratedDoc) :=
  match (generate call.2).text? with
  | some text => slots.set call.1 (some { name := call.2.name, text })
  | none => slots

structure Run where
  slots : List (Option GeneratedDoc)
  /-- The requests in the order in which the generator was called for them. -/
  calls : List DocRequest
  pausedMs : Nat
  /-- The most calls that were outstanding at a time. -/
  peak : Nat
  deriving DecidableEq, Repr

/-- The texts, in the order of their requests. -/
def Run.docs (run : Run) : List GeneratedDoc :=
  run.slots.filterMap id

/-- Runs one group after a pause, which the first group of a batch goes without. -/
def runGroup (generate : DocRequest → Outcome) (schedule : Schedule) (delayMs : Nat) (run : Run)
    (group : List Call) : Run where
  slots := (schedule group).foldl (settle generate) run.slots
  calls := run.calls ++ group.map (·.2)
  pausedMs := run.pausedMs + if run.calls.isEmpty then 0 else delayMs
  peak := max run.peak group.length

def run (generator : Generator) (schedule : Schedule) (options : BatchOptions) (style : Style)
    (requests : List DocRequest) : Run :=
  let chosen := firstOfName requests
  let calls := chosen.zipIdx.map fun (r, index) => (index, r)
  (groups (groupSize options) calls.length calls).foldl
    (runGroup (generator · style) schedule options.delayMs)
    { slots := chosen.map fun _ => none, calls := [], pausedMs := 0, peak := 0 }

/-- Runs a batch whose calls end in the order in which they were made. -/
def generateAll (generator : Generator) (options : BatchOptions) (style : Style)
    (requests : List DocRequest) : Run :=
  run generator id options style requests

end Batch
end DocComments
