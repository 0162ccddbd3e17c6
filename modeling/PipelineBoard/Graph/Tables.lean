-- The orderer at work on tables. What it knows of an id, it looks up; a look-up
-- of an id that was never put into the table ends the run without a result.
import PipelineBoard.Graph.Order

namespace PipelineBoard

namespace Order

/-! ## Tables -/

/-- A table of ids. An id that was never put in is not found. -/
abbrev Table (α : Type) := Text → Option α

namespace Table

variable {α : Type}

def empty : Table α := fun _ => none

/-- The table with a value for an id in place of any that it had. -/
def put (table : Table α) (id : Text) (value : α) : Table α :=
  fun other => if other = id then some value else table other

/-- Each id with what the table holds for it, if it holds all of them. -/
def lookUpAll (table : Table α) (ids : List Text) : Option (List (Text × α)) :=
  ids.mapM fun id => (table id).map fun value => (id, value)

@[simp] theorem put_self (table : Table α) (id : Text) (value : α) :
    table.put id value id = some value := if_pos rfl

theorem put_of_ne {id other : Text} (h : other ≠ id) (table : Table α) (value : α) :
    table.put id value other = table other := if_neg h

end Table

/-! ## The run -/

/-- What a run only reads: the place of each listed id, and the targets of each
source in the order of its edges. -/
structure Tables where
  place : Table Nat
  targets : Table (List Text)

/-- The state of a run over tables: the queue of ready ids, the ids ordered so
far, and the counts of incoming edges whose sources are not ordered yet. -/
structure TableRun where
  queue : List Text
  done : List Text
  waiting : Table Int

/-- The places of the ids, the last one of an id that is listed twice. -/
def places (ids : List Text) : Table Nat :=
  ids.zipIdx.foldl (fun table listed => table.put listed.1 listed.2) Table.empty

/-- A count of zero for each id. -/
def zeros (ids : List Text) : Table Int :=
  ids.foldl (fun table id => table.put id 0) Table.empty

/-- Puts an edge on record: one more target of its source, and one more edge to
wait for. -/
def record (tables : Table (List Text) × Table Int) (edge : Text × Text) :
    Table (List Text) × Table Int :=
  (tables.1.put edge.1 ((tables.1 edge.1).getD [] ++ [edge.2]),
    tables.2.put edge.2 ((tables.2 edge.2).getD 0 + 1))

/-- The tables of a list of ids and of edges, and the run before any id is
ordered. -/
def tabulate (ids : List Text) (edges : List (Text × Text)) : Option (Tables × TableRun) := do
  let (targets, waiting) := edges.foldl record (Table.empty, zeros ids)
  let counted ← waiting.lookUpAll ids
  let ready := (counted.filter fun entry => entry.2 = 0).map (·.1)
  return (⟨places ids, targets⟩, ⟨ready, [], waiting⟩)

namespace Tables

/-- Counts one edge into an id as met: the counts after it, and the ids that it
made ready after those before. -/
def meet (tables : Tables) (met : Table Int × List Text) (target : Text) :
    Option (Table Int × List Text) := do
  let before ← met.1 target
  let count := before - 1
  return (met.1.put target count,
    if count = 0 && (tables.place target).isSome then met.2 ++ [target] else met.2)

/-- Takes the first ready id out of the queue, orders it, and makes ready what it
was the last source of. From an empty queue nothing is taken. -/
def pop (tables : Tables) (run : TableRun) : Option TableRun :=
  match run.queue with
  | [] => none
  | id :: queue => do
    let (waiting, ready) ← ((tables.targets id).getD []).foldlM tables.meet (run.waiting, [])
    let placed ← tables.place.lookUpAll ready
    let freed := (placed.mergeSort fun a b => a.2 ≤ b.2).map (·.1)
    return ⟨queue ++ freed, run.done ++ [id], waiting⟩

/-- The loop. While some id is ready, the first one is taken; from a run it comes to
its last one after so many pops. -/
inductive Drains (tables : Tables) : TableRun → Nat → TableRun → Prop
  | ended {run : TableRun} (h : run.queue = []) : Drains tables run 0 run
  | turned {run next last : TableRun} {pops : Nat} (h : tables.pop run = some next)
      (rest : Drains tables next pops last) : Drains tables run (pops + 1) last

end Tables

end Order

end PipelineBoard
