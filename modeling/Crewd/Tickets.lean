import Crewd.Types

/-! Wait-for graph over active awaits, and the cycle search that refuses an
await. Parallel awaits on one pair of cells are counted. -/
namespace Crewd

/-- Active edges with their counts; the list order stands for the iteration
order of the hash map, which no property may depend on. -/
structure WaitForGraph where
  edges : List ((String × String) × Nat)

structure AwaitGuard where
  waiter : String
  target : String
deriving DecidableEq

namespace WaitForGraph

def new : WaitForGraph := ⟨[]⟩

/-- Follow parents from `cur` back to `target`. The fuel covers every node, and a
missing parent, where the program would stop, ends the walk. -/
def walkBack (parent : List (String × String)) (target : String) : Nat → String → List String
  | 0, _ => []
  | fuel + 1, cur =>
    if cur = target then []
    else match parent.lookup cur with
      | some up => cur :: walkBack parent target fuel up
      | none => [cur]

/-- Search state: queued nodes, visited nodes, parent of each visited node. -/
structure Search where
  queue : List String
  visited : List String
  parent : List (String × String)

/-- Scan the edges leaving `node`; the second component reports that one of them
ends in `goal`. -/
def scan (goal node : String) : List ((String × String) × Nat) → Search → Search × Bool
  | [], search => (search, false)
  | ((a, b), count) :: rest, search =>
    if count = 0 ∨ a ≠ node then scan goal node rest search
    else if b = goal then (search, true)
    else if b ∈ search.visited then scan goal node rest search
    else scan goal node rest
      ⟨search.queue ++ [b], b :: search.visited, (b, node) :: search.parent⟩

/-- Breadth-first search from `target` for `waiter`. Each round takes one node off
the queue, and an edge enqueues at most one node. -/
def search (waiter target : String) (edges : List ((String × String) × Nat)) :
    Nat → Search → Option (List String)
  | 0, _ => none
  | fuel + 1, state =>
    match state.queue with
    | [] => none
    | node :: queue =>
      match scan waiter node edges { state with queue := queue } with
      | (found, true) =>
        some ([waiter, target] ++ walkBack found.parent target (edges.length + 1) node)
      | (onward, false) => search waiter target edges fuel onward

/-- The nodes of the cycle that the edge `waiter → target` would close. -/
def closesCycle (graph : WaitForGraph) (waiter target : String) : Option (List String) :=
  if waiter = target then some [waiter]
  else search waiter target graph.edges (graph.edges.length + 1) ⟨[target], [target], []⟩

def bump (pair : String × String) : List ((String × String) × Nat) → List ((String × String) × Nat)
  | [] => [(pair, 1)]
  | (known, count) :: rest =>
    if known = pair then (known, count + 1) :: rest else (known, count) :: bump pair rest

def tryActivateAwait (graph : WaitForGraph) (waiter target : String) :
    Except BusError AwaitGuard × WaitForGraph :=
  match graph.closesCycle waiter target with
  | some cycle =>
    let path := String.intercalate " -> " cycle
    (.error (.wouldDeadlock s!"await {waiter} -> {target} would close a cycle: {path}"), graph)
  | none => (.ok ⟨waiter, target⟩, ⟨bump (waiter, target) graph.edges⟩)

def release (graph : WaitForGraph) (guard : AwaitGuard) : WaitForGraph :=
  let pair := (guard.waiter, guard.target)
  let lowered := graph.edges.map fun (known, count) =>
    if known = pair then (known, count - 1) else (known, count)
  ⟨lowered.filter fun (known, count) => ¬ (known = pair ∧ count = 0)⟩

end WaitForGraph
end Crewd
