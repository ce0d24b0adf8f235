/-!
# Breadth-first search

A search keeps the items it has expanded, the last one first, and a queue of items that were found
and wait for their turn.  Expanding the front of the queue puts those of its successors that were
not found before at the back.  No item is queued twice, so on a finite world the queue runs empty.
-/

namespace Acceptors

structure Search (β : Type) where
  expanded : List β
  queue : List β
deriving DecidableEq, Repr

namespace Search

variable {β : Type}

/-- All items met so far, in the order of discovery. -/
def found (s : Search β) : List β := s.expanded.reverse ++ s.queue

variable [DecidableEq β]

def start (seeds : List β) : Search β := ⟨[], seeds.eraseDups⟩

/-- The successors of an item that were not found before, each of them once. -/
def fresh (s : Search β) (next : β → List β) (b : β) : List β :=
  ((next b).filter fun c => c ∉ s.expanded ∧ c ∉ s.queue).eraseDups

def step (s : Search β) (next : β → List β) : Search β :=
  match s.queue with
  | [] => s
  | b :: queue => ⟨b :: s.expanded, queue ++ s.fresh next b⟩

def run (next : β → List β) : Nat → Search β → Search β
  | 0, s => s
  | limit + 1, s => if s.queue.isEmpty then s else run next limit (s.step next)

/-- The items reached from the seeds, in the order of discovery, if `limit` suffices. -/
def reach (next : β → List β) (limit : Nat) (seeds : List β) : List β :=
  (run next limit (start seeds)).expanded.reverse

end Search

end Acceptors
