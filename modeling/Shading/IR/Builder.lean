import Shading.Act
import Shading.IR.Layout
import Shading.IR.Module

/-! # Building instructions

    A builder is a module with a cursor: the block at whose end the next
    instruction goes.  The cursor is not checked when it is set.  Every
    operation first checks its operands and only then changes the module,
    and none adds anything to a block that is already ended. -/

namespace Shading.IR

/-- The end of a block of a function. -/
structure Cursor where
  func : FuncId
  block : BlockId
  deriving DecidableEq, Repr, Inhabited

/-- A module and the place where instructions are added to it. -/
structure Builder where
  module : Module
  cursor : Option Cursor
  deriving DecidableEq, Repr, Inhabited

namespace Builder

/-- A builder that stands nowhere. -/
def start (m : Module) : Builder := ⟨m, none⟩

/-- Stand at the end of a block. -/
def moveTo (b : Builder) (func : FuncId) (block : BlockId) : Builder :=
  { b with cursor := some ⟨func, block⟩ }

/-- Stand nowhere. -/
def leave (b : Builder) : Builder := { b with cursor := none }

def currentFunction? (b : Builder) : Option FuncId := b.cursor.map (·.func)

def currentBlock? (b : Builder) : Option BlockId := b.cursor.map (·.block)

/-- Is the current block already ended? -/
def isTerminated (b : Builder) : Bool :=
  match b.cursor with
  | some c => (b.module.function? c.func).any (·.isTerminated c.block)
  | none => false

end Builder

/-- Actions on a builder. -/
abbrev Build := Act Builder Error

namespace Build

/-! ## Where the builder stands -/

/-- The cursor, which must be set. -/
def cursor : Build Cursor := do
  match (← get).cursor with
  | some c => pure c
  | none => throw .noInsertPoint

/-- The function at a position. -/
def function (id : FuncId) : Build Function := do
  Act.ofExcept ((← get).module.function id)

/-- The function that the cursor is in. -/
def current : Build Function := do
  function (← cursor).func

/-- The number of the function that the cursor is in. -/
def currentFunction : Build FuncId := return (← cursor).func

/-- The number of the block that the cursor is in. -/
def currentBlock : Build BlockId := return (← cursor).block

def moveTo (func : FuncId) (block : BlockId) : Build Unit := modify (·.moveTo func block)

def leave : Build Unit := modify (·.leave)

def isTerminated : Build Bool := return (← get).isTerminated

/-- Change a function of the module. -/
def update (id : FuncId) (change : Function → Function) : Build Unit :=
  modify fun b => { b with module := b.module.update id change }

/-- The type of an operand in the current function. -/
def valueType (v : Value) : Build Ty := do
  Act.ofExcept ((← current).valueType v)

/-- Refuse an operand that does not have the expected type. -/
def expect (v : Value) (expected : Ty) (context : String) : Build Unit := do
  let found ← valueType v
  Act.refuseIf (found ≠ expected) (.typeMismatch context expected found)

/-! ## Functions and blocks -/

/-- Declare a symbol, or find it if it is declared alike. -/
def declare (name : String) (signature : Signature) (linkage : Linkage) : Build FuncId := do
  let b ← get
  match b.module.find? name with
  | some id =>
    let f ← function id
    Act.refuseIf (f.signature ≠ signature ∨ f.linkage ≠ linkage) (.signatureMismatch name)
    pure id
  | none =>
    set { b with module := b.module.add name signature linkage }
    pure b.module.functions.length

/-- Is a label the base itself, or the base with a dotted suffix? -/
def labelUses (base label : String) : Bool :=
  label == base || (base ++ ".").toList.isPrefixOf label.toList

/-- The label of a new block: the base, numbered by how many labels use it. -/
def newLabel (blocks : List Block) (base : String) : String :=
  match blocks.countP fun b => labelUses base b.label with
  | 0 => base
  | n + 1 => s!"{base}.{n + 1}"

/-- Append an empty block to a function. -/
def appendBlock (func : FuncId) (label : String) : Build BlockId := do
  let f ← function func
  update func (·.addBlock (newLabel f.blocks label))
  pure f.blocks.length

/-- Drop the body of a function. -/
def clearBody (func : FuncId) : Build Unit := do
  let _ ← function func
  update func Function.clearBody

/-- Add an instruction at the cursor. -/
def emit (op : Op) (ty : Ty) : Build InstId := do
  let c ← cursor
  let f ← function c.func
  Act.refuseIf (f.isTerminated c.block)
    (.blockTerminated ((f.block? c.block).elim "" (·.label)))
  update c.func (·.pushInst c.block ⟨op, ty, none⟩)
  pure f.insts.length

/-- Add an instruction whose result is used. -/
def emitValue (op : Op) (ty : Ty) : Build Value := return .inst (← emit op ty)

/-- Add an instruction that has no result. -/
def emitVoid (op : Op) : Build Unit := do
  let _ ← emit op .void

/-! ## Memory -/

/-- Reserve a stack slot.  It goes behind the slots that the entry block
    starts with, so that a slot inside a loop is reserved once per call. -/
def alloca (ty : Ty) (name : String) : Build Value := do
  match ty.size? with
  | none => throw (.unsized ty)
  | some size =>
    let c ← cursor
    let f ← function c.func
    update c.func (·.insertInst 0 (f.leadingAllocas 0) ⟨.alloca ty size, .ptr ty, some name⟩)
    pure (.inst f.insts.length)

/-- What a pointer operand points to. -/
def pointee (ptr : Value) (context : String) : Build Ty := do
  let found ← valueType ptr
  match found.pointee? with
  | some t => pure t
  | none => throw (.notAPointer context found)

def load (ptr : Value) : Build Value := do
  let ty ← pointee ptr "load"
  emitValue (.load ptr) ty

def store (value ptr : Value) : Build Unit := do
  let ty ← pointee ptr "store"
  expect value ty "store"
  emitVoid (.store value ptr)

/-! ## Arithmetic -/

/-- Both operands have one type, and it suits the operation. -/
def arith (op : ArithOp) (lhs rhs : Value) : Build Value := do
  let ty ← valueType lhs
  expect rhs ty "arithmetic"
  Act.refuseIf (!op.accepts ty) (.typeMismatch "arithmetic" op.scalar ty)
  emitValue (.arith op lhs rhs) ty

/-- Compare two floats, two integers or two booleans. -/
def cmp (pred : CmpPred) (lhs rhs : Value) : Build Value := do
  let ty ← valueType lhs
  expect rhs ty "comparison"
  match ty with
  | .f32 => emitValue (.cmp pred true lhs rhs) .bool
  | .i32 | .bool => emitValue (.cmp pred false lhs rhs) .bool
  | _ => throw (.typeMismatch "comparison" .f32 ty)

/-- Negate a number or a vector. -/
def neg (value : Value) : Build Value := do
  let ty ← valueType value
  Act.refuseIf (!(ty.isFloatLike || ty == .i32)) (.typeMismatch "negation" .f32 ty)
  emitValue (.neg value) ty

def not (value : Value) : Build Value := do
  expect value .bool "not"
  emitValue (.not value) .bool

def cast (op : CastOp) (value : Value) : Build Value := do
  expect value op.source "cast"
  emitValue (.cast op value) op.target

/-- Assemble a vector.  Its type keeps the number of lanes modulo 256. -/
def vector (lanes : List Value) : Build Value := do
  lanes.forM (expect · .f32 "vector lane")
  emitValue (.vector lanes) (.vector (UInt8.ofNat lanes.length))

def splat (value : Value) (lanes : UInt8) : Build Value := do
  expect value .f32 "splat"
  emitValue (.splat value lanes) (.vector lanes)

/-! ## Calls and control flow -/

/-- Call a function.  A call without result has the void operand. -/
def call (callee : FuncId) (args : List Value) : Build Value := do
  let f ← function callee
  let params := f.signature.params
  let ret := f.signature.ret
  Act.refuseIf (params.length ≠ args.length)
    (.argumentCount f.name params.length args.length)
  -- The counts agree, so every argument meets its parameter.
  (args.zip params).forM fun p => expect p.1 p.2 "call argument"
  let id ← emit (.call callee args) ret
  pure (if ret.isVoid then .void else .inst id)

/-- Merge values of one type by the block that control came from. -/
def phi (ty : Ty) (incoming : List (Value × BlockId)) : Build Value := do
  incoming.forM fun p => expect p.1 ty "phi"
  emitValue (.phi incoming) ty

/-- Refuse a result that does not have the expected type; no result has the
    type of nothing. -/
def expectResult (value : Option Value) (expected : Ty) : Build Unit :=
  match value with
  | some v => expect v expected "return"
  | none => Act.refuseIf (!expected.isVoid) (.typeMismatch "return" expected .void)

/-- Return from the current function. -/
def ret (value : Option Value) : Build Unit := do
  let f ← current
  expectResult value f.signature.ret
  emitVoid (.ret value)

def br (target : BlockId) : Build Unit := emitVoid (.br target)

def unreachable : Build Unit := emitVoid .unreachable

def condBr (cond : Value) (thenBlock elseBlock : BlockId) : Build Unit := do
  expect cond .bool "branch condition"
  emitVoid (.condBr cond thenBlock elseBlock)

end Build

end Shading.IR
