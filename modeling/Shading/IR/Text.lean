import Shading.IR.Module

/-! # The written form of a module -/

namespace Shading.IR

/-- Texts separated by a comma and a blank. -/
def commaSeparated (parts : List String) : String := ", ".intercalate parts

namespace Function

/-- The label of a block, for use in a branch. -/
def labelOf (f : Function) (b : BlockId) : String := (f.block? b).elim "?" (·.label)

/-- An instruction without its number. -/
def opText (f : Function) (m : Module) (i : Inst) : String :=
  match i.op with
  | .alloca ty size => s!"alloca {ty.text}, size {size.toNat}"
  | .load p => s!"load {i.ty.text}, {p.text}"
  | .store v p => s!"store {v.text}, {p.text}"
  | .arith op l r => s!"{op.mnemonic} {i.ty.text} {l.text}, {r.text}"
  | .cmp pred true l r => s!"fcmp o{pred.mnemonic} {l.text}, {r.text}"
  | .cmp pred false l r => s!"icmp {pred.mnemonic} {l.text}, {r.text}"
  | .neg v => s!"neg {i.ty.text} {v.text}"
  | .not v => s!"not {v.text}"
  | .cast op v => s!"{op.mnemonic} {v.text} to {i.ty.text}"
  | .vector lanes => s!"vector {i.ty.text} [" ++ commaSeparated (lanes.map (·.text)) ++ "]"
  | .splat v lanes => s!"splat {v.text} x {lanes.toNat}"
  | .call callee args =>
    let name := (m.function? callee).elim "?" (·.name)
    s!"call {i.ty.text} @{name}(" ++ commaSeparated (args.map (·.text)) ++ ")"
  | .phi incoming =>
    s!"phi {i.ty.text} " ++
      commaSeparated (incoming.map fun (v, b) => s!"[{v.text}, %{f.labelOf b}]")
  | .ret (some v) => s!"ret {v.text}"
  | .ret none => "ret void"
  | .br target => s!"br %{f.labelOf target}"
  | .condBr c t e => s!"br {c.text}, %{f.labelOf t}, %{f.labelOf e}"
  | .unreachable => "unreachable"

/-- One line for an instruction of a block. -/
def instLine (f : Function) (m : Module) (id : InstId) : String :=
  match f.inst? id with
  | none => ""
  | some i =>
    let result := if i.hasResult then s!"%{id} = " else ""
    let note := i.name.elim "" (" ; " ++ ·)
    "  " ++ result ++ f.opText m i ++ note ++ "\n"

/-- A label and the lines of its block. -/
def blockText (f : Function) (m : Module) (b : Block) : String :=
  b.label ++ ":\n" ++ String.join (b.insts.map (f.instLine m))

/-- The head of a declaration or definition. -/
def headText (f : Function) : String :=
  let keyword := if f.isDeclaration then "declare " else "define "
  let linkage :=
    match f.linkage with
    | .internal => "internal "
    | .external => ""
  let params := f.signature.params.zipIdx.map fun (t, i) => s!"{t.text} %arg{i}"
  keyword ++ linkage ++ f.signature.ret.text ++ " @" ++ f.name ++ "(" ++ commaSeparated params ++
    ")"

/-- A declaration or definition. -/
def text (f : Function) (m : Module) : String :=
  if f.isDeclaration then f.headText ++ "\n"
  else f.headText ++ " \x7b\n" ++ String.join (f.blocks.map (f.blockText m)) ++ "\x7d\n"

end Function

/-- The written form of a module. -/
def Module.text (m : Module) : String :=
  s!"; module '{m.name}'\n" ++ String.join (m.functions.map fun f => "\n" ++ f.text m)

end Shading.IR
