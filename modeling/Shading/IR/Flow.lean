import Shading.IR.Function

/-! # Control flow

    The blocks that control can reach from the entry, and those among them
    at whose end it would run off the function. -/

namespace Shading.IR.Function

/-- The blocks that the end of a block leads to and that exist. -/
def next (f : Function) (b : BlockId) : List BlockId :=
  (f.successors b).filter (· < f.blocks.length)

/-- Search from the pending blocks.  A block is marked when it becomes
    pending, so each turn takes a block that no other turn takes, and as many
    turns as there are blocks are enough. -/
def explore (f : Function) : (turns : Nat) → (marked pending : List BlockId) → List BlockId
  | 0, marked, _ => marked
  | _ + 1, marked, [] => marked
  | turns + 1, marked, b :: rest =>
    -- A conditional branch may name one block twice.
    let new := ((f.next b).filter (!marked.contains ·)).eraseDups
    explore f turns (marked ++ new) (rest ++ new)

/-- The blocks that control can reach from the entry, in block order. -/
def reachable (f : Function) : List BlockId :=
  if f.blocks.isEmpty then []
  else
    let marked := f.explore f.blocks.length [0] [0]
    (List.range f.blocks.length).filter marked.contains

/-- Can control reach a block? -/
def isReachable (f : Function) (b : BlockId) : Bool := f.reachable.contains b

/-- The blocks that control can reach and that are not ended. -/
def openBlocks (f : Function) : List BlockId := f.reachable.filter (!f.isTerminated ·)

/-- Does every path end in a terminator?  A function without body has no
    path that returns. -/
def allPathsReturn (f : Function) : Bool := !f.blocks.isEmpty && f.openBlocks.isEmpty

end Shading.IR.Function
