/-!
# Heaps

The elements of a heap stand at places counted from zero, and those below the place `i` stand at
`2 * i + 1` and `2 * i + 2`. No element precedes the one that it stands below. A comparison may
fail, and whatever compares fails with it.
-/

namespace Showrunner

namespace Recurrence

namespace Heap

variable {α ε : Type} (precedes : α → α → Except ε Bool)

/-- Let an element sink to the last place below its own, each time past the one of the two below
it that comes first, and say where it is. -/
def sink : (steps place : Nat) → Array α → Except ε (Array α × Nat)
  | 0, place, heap => .ok (heap, place)
  | steps + 1, place, heap =>
      let left := 2 * place + 1
      match heap[left]?, heap[left + 1]? with
      | none, _ => .ok (heap, place)
      | some _, none => sink steps left (heap.swapIfInBounds place left)
      | some a, some b => do
          let first := if ← precedes a b then left else left + 1
          sink steps first (heap.swapIfInBounds place first)

/-- Let an element rise while it precedes the one above it, at most to a top place. -/
def rise (top : Nat) : (steps place : Nat) → Array α → Except ε (Array α)
  | 0, _, heap => .ok heap
  | steps + 1, place, heap =>
      if place ≤ top then .ok heap
      else
        let above := (place - 1) / 2
        match heap[place]?, heap[above]? with
        | some a, some b => do
            if ← precedes a b then rise top steps above (heap.swapIfInBounds place above) else pure heap
        | _, _ => .ok heap

/-- Bring the element at a place to where it belongs below it: it sinks to the end and rises from
there. -/
def settle (heap : Array α) (place : Nat) : Except ε (Array α) := do
  let (sunk, last) ← sink precedes heap.size place heap
  rise precedes place heap.size last sunk

/-- Make a heap of elements, from the last place that has one below it to the first. -/
def build (elements : List α) : Except ε (List α) := do
  let heap ← (List.range (elements.length / 2)).reverse.foldlM (settle precedes) elements.toArray
  pure heap.toList

/-- Put an element in the place of the first one. -/
def replace (a : α) (rest : List α) : Except ε (List α) := do
  pure (← settle precedes (a :: rest).toArray 0).toList

/-- Take the first element away: the last one comes in its place. -/
def pop (rest : List α) : Except ε (List α) :=
  match rest.getLast? with
  | none => .ok []
  | some last => replace precedes last rest.dropLast

end Heap

end Recurrence

end Showrunner
