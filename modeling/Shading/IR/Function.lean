import Shading.IR.Error
import Shading.IR.Inst

/-! # Functions and blocks

    A function holds its instructions in order of creation, and its blocks
    hold the numbers of instructions in order of execution.  The two orders
    differ because stack slots are moved to the front of the entry block. -/

namespace Shading.IR

/-- Who defines a function. -/
inductive Linkage where
  /-- This module. -/
  | internal
  /-- The renderer or its host. -/
  | external
  deriving DecidableEq, Repr, Inhabited

/-- Parameter types and result type. -/
structure Signature where
  params : List Ty
  ret : Ty
  deriving DecidableEq, Repr, Inhabited

/-- A labelled sequence of instructions. -/
structure Block where
  label : String
  insts : List InstId
  deriving DecidableEq, Repr, Inhabited

/-- A declared function; without blocks it is only a declaration. -/
structure Function where
  name : String
  signature : Signature
  linkage : Linkage
  blocks : List Block
  insts : List Inst
  deriving DecidableEq, Repr, Inhabited

namespace Function

/-- A function without a body. -/
def declaration (name : String) (signature : Signature) (linkage : Linkage) : Function :=
  ⟨name, signature, linkage, [], []⟩

def isDeclaration (f : Function) : Bool := f.blocks.isEmpty

def block? (f : Function) (b : BlockId) : Option Block := f.blocks[b]?

def inst? (f : Function) (i : InstId) : Option Inst := f.insts[i]?

/-- The instructions of a block in order. -/
def blockInsts (f : Function) (b : BlockId) : List Inst :=
  match f.block? b with
  | some block => block.insts.filterMap f.inst?
  | none => []

/-- All instructions that stand in a block, block by block. -/
def instructions (f : Function) : List Inst :=
  f.blocks.flatMap fun block => block.insts.filterMap f.inst?

/-- The instruction that ends a block, if the block is ended. -/
def terminator? (f : Function) (b : BlockId) : Option Inst := do
  let block ← f.block? b
  let last ← block.insts.getLast?
  (f.inst? last).filter (·.op.isTerminator)

def isTerminated (f : Function) (b : BlockId) : Bool := (f.terminator? b).isSome

/-- The blocks that control may reach from the end of a block. -/
def successors (f : Function) (b : BlockId) : List BlockId :=
  match f.terminator? b with
  | some i => i.op.successors
  | none => []

/-- The type of an operand inside this function. -/
def valueType (f : Function) : Value → Except Error Ty
  | .const c => .ok c.ty
  | .arg i =>
    match f.signature.params[i]? with
    | some t => .ok t
    | none => .error (.unknownArgument f.name i)
  | .inst id =>
    match f.inst? id with
    | some i => .ok i.ty
    | none => .error (.unknownValue id)
  | .void => .ok .void

/-- Drop the body and keep the declaration. -/
def clearBody (f : Function) : Function := { f with blocks := [], insts := [] }

/-- The body of another function under the head of this one. -/
def withBodyOf (f g : Function) : Function := { f with blocks := g.blocks, insts := g.insts }

/-- Append an empty block. -/
def addBlock (f : Function) (label : String) : Function :=
  { f with blocks := f.blocks ++ [⟨label, []⟩] }

/-- Append an instruction to a block. -/
def pushInst (f : Function) (b : BlockId) (i : Inst) : Function :=
  { f with
    insts := f.insts ++ [i]
    blocks := f.blocks.modify b fun block =>
      { block with insts := block.insts ++ [f.insts.length] } }

/-- Put an instruction at a place inside a block. -/
def insertInst (f : Function) (b : BlockId) (place : Nat) (i : Inst) : Function :=
  { f with
    insts := f.insts ++ [i]
    blocks := f.blocks.modify b fun block =>
      { block with
        insts := block.insts.take place ++ f.insts.length :: block.insts.drop place } }

/-- How many stack slots a block starts with. -/
def leadingAllocas (f : Function) (b : BlockId) : Nat :=
  ((f.blockInsts b).takeWhile (·.op.isAlloca)).length

/-- A block must end in a terminator and hold no other one. -/
def verifyBlock (f : Function) (block : Block) : Except Error Unit :=
  let terminates (i : InstId) : Bool := (f.inst? i).any (·.op.isTerminator)
  match block.insts.getLast? with
  | none => .error (.missingTerminator block.label)
  | some last =>
    if !terminates last then .error (.missingTerminator block.label)
    else if block.insts.dropLast.any terminates then .error (.blockTerminated block.label)
    else .ok ()

/-- Check every block, and report the first that is not well formed. -/
def verify (f : Function) : Except Error Unit := f.blocks.forM f.verifyBlock

end Function

end Shading.IR
