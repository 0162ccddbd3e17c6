-- The dependency order of a graph: every source before its targets. Ready
-- ids wait in a queue; ids that become ready together enter it in the order
-- of the list of ids. What a cycle or an unknown source blocks is left out.
import PipelineBoard.Graph.Basic

namespace PipelineBoard

namespace Order

/-! ## The state of the run -/

/-- The queue of ready ids, the ids ordered so far, and for each id the
number of its incoming edges whose sources are not ordered yet. An id that is
listed twice can bring that number below zero. -/
structure Run where
  queue : List Text
  done : List Text
  waiting : Text → Int

/-- The place of an id in the list, the last one if it is listed twice. -/
def placeIn (ids : List Text) (id : Text) : Nat :=
  ids.length - ids.reverse.idxOf id

/-- Counts one edge into an id as met: the counts after it, and the ids that
it made ready after those before. -/
def meet (ids : List Text) (met : (Text → Int) × List Text) (target : Text) :
    (Text → Int) × List Text :=
  let count := met.1 target - 1
  (fun id => if id = target then count else met.1 id,
    if count = 0 && ids.contains target then met.2 ++ [target] else met.2)

/-- The targets of the edges from an id, in the order of the edges. -/
def targets (edges : List (Text × Text)) (id : Text) : List Text :=
  (edges.filter fun edge => edge.1 = id).map (·.2)

/-- The run before any id is ordered: every id without incoming edges is
ready. -/
def start (ids : List Text) (edges : List (Text × Text)) : Run :=
  let waiting : Text → Int := fun id => edges.countP fun edge => edge.2 = id
  ⟨ids.filter fun id => waiting id = 0, [], waiting⟩

/-- Orders the first ready id and makes ready what it was the last source of. -/
def advance (ids : List Text) (edges : List (Text × Text)) (run : Run) : Run :=
  match run.queue with
  | [] => run
  | id :: queue =>
    let (waiting, ready) := (targets edges id).foldl (meet ids) (run.waiting, [])
    ⟨queue ++ ready.mergeSort fun a b => placeIn ids a ≤ placeIn ids b, run.done ++ [id], waiting⟩

/-- So many steps of the run. -/
def advanceBy (ids : List Text) (edges : List (Text × Text)) : Nat → Run → Run
  | 0, run => run
  | steps + 1, run => advanceBy ids edges steps (advance ids edges run)

/-- The ids in dependency order. No id becomes ready more often than it is
listed, so as many steps as ids empty the queue. -/
def topological (ids : List Text) (edges : List (Text × Text)) : List Text :=
  (advanceBy ids edges ids.length (start ids edges)).done

/-! ## First facts -/

@[simp] theorem advanceBy_zero (ids : List Text) (edges : List (Text × Text)) (run : Run) :
    advanceBy ids edges 0 run = run := rfl

/-- A run with an empty queue is over. -/
theorem advance_of_queue_nil (ids : List Text) (edges : List (Text × Text)) {run : Run}
    (h : run.queue = []) : advance ids edges run = run := by
  simp [advance, h]

end Order

/-- The sources and targets of the edges. -/
def Graph.links (g : Graph) : List (Text × Text) :=
  g.edges.map fun edge => (edge.source, edge.target)

/-- The ids of a graph's nodes in dependency order. -/
def Graph.order (g : Graph) : List Text := Order.topological g.ids g.links

end PipelineBoard
