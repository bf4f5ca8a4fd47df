import Shading.Proofs.Declarations

/-! # What a definition can do

    All ends that the definition of a function can come to, answered or
    refused, with the state each of them leaves.  What is known about whole
    sessions is derived from this list and from what is known about bodies. -/

namespace Shading

open IR

variable {E : Fault → Work → Prop} {w w₁ : Work} {e : Entry} {id : EntryId}

/-! ## Running -/

namespace Lower

variable {α : Type}

theorem meets_emit {x : Emit α} {Q : α → Work → Prop} :
    (liftM x : Lower α).Meets w Q E ↔ x.Meets w.builder (fun a b => Q a { w with builder := b })
      fun e b => E e { w with builder := b } := by
  show (x.onPart Work.builder fun w b => { w with builder := b }).Meets w Q E ↔ _
  exact Act.meets_onPart

theorem meets_build {x : Build α} {Q : α → Work → Prop} :
    (liftM x : Lower α).Meets w Q E ↔ x.Meets w.builder (fun a b => Q a { w with builder := b })
      fun e b => E e.toFault { w with builder := b } :=
  (meets_emit (x := x.mapError Error.toFault)).trans Act.meets_mapError

end Lower

/-! ## Bodies -/

namespace Lower

/-- A body up to its exit: the entry block, the arguments and the
    statements. -/
def untilExit (env : Env) (p : Prototype) (func : FuncId) (decl : FunctionDecl) : Lower Unit := do
  let entry ← Build.appendBlock func "entry"
  Build.moveTo func entry
  setScopes (← symbols).scopes.push
  let depth := (← symbols).scopes.depth
  modify fun w => { w with symbols := { w.symbols with
    control := .function ⟨p.name, p.ret, depth⟩ :: w.symbols.control } }
  p.params.zipIdx.forM fun q => bindArgument env q.1 q.2
  Stmt.lowerAll env decl.body

/-- A body with its exit and the checks behind it. -/
def checkedBody (env : Env) (p : Prototype) (func : FuncId) (decl : FunctionDecl) :
    Lower Unit := do
  untilExit env p func decl
  implicitExit env p func decl.span
  checkBody p func decl.span

end Lower

/-- Two states differ at most in the scopes and the control structures. -/
structure Work.Alike (w w' : Work) : Prop where
  builder : w'.builder = w.builder
  functions : w'.symbols.functions = w.symbols.functions
  diagnostics : w'.diagnostics = w.diagnostics

namespace Lower

variable (env : Env) (p : Prototype) (func : FuncId) (decl : FunctionDecl)

theorem checkedBody_eq : checkedBody env p func decl = (do
    let entry ← (liftM (Build.appendBlock func "entry") : Lower BlockId)
    liftM (Build.moveTo func entry)
    setScopes (← symbols).scopes.push
    let depth := (← symbols).scopes.depth
    modify fun w => { w with symbols := { w.symbols with
      control := .function ⟨p.name, p.ret, depth⟩ :: w.symbols.control } }
    body env p func decl) := by
  unfold checkedBody untilExit body
  simp only [bind_assoc]

/-- The frame around a body only sees to its scopes and control structures. -/
theorem frameBody_meets {env : Env} {p : Prototype} {func : FuncId} {decl : FunctionDecl}
    {Q : Unit → Work → Prop} (h : (checkedBody env p func decl).Meets w Q E) :
    (frameBody env p func decl).Meets w (fun a t => ∃ u, u.Alike t ∧ Q a u)
      fun e t => ∃ u, u.Alike t ∧ E e u := by
  -- The frame and the scope that are put back afterwards change neither module nor table.
  have hsame : ∃ w', (frameBody env p func decl).run w =
      (((checkedBody env p func decl).run w).1, w') ∧
      ((checkedBody env p func decl).run w).2.Alike w' := by
    rw [checkedBody_eq]
    unfold frameBody
    rcases happ : (liftM (Build.appendBlock func "entry") : Lower BlockId).run w with ⟨r, w₁⟩
    rw [Act.run_bind, Act.run_bind, happ]
    cases r with
    | error e => exact ⟨w₁, rfl, rfl, rfl, rfl⟩
    | ok entry => exact ⟨_, rfl, rfl, rfl, rfl⟩
  obtain ⟨w', hrun, halike⟩ := hsame
  unfold Act.Meets at h ⊢
  rw [hrun]
  rcases hc : (checkedBody env p func decl).run w with ⟨r, u⟩
  rw [hc] at h halike
  cases r with
  | ok a => exact ⟨u, halike, h⟩
  | error e => exact ⟨u, halike, h⟩

end Lower

/-! ## Definitions -/

namespace Work

/-- The entry of a function is marked before its body is lowered. -/
def marked (w : Work) (id : EntryId) : Work :=
  { w with symbols := { w.symbols with functions := w.symbols.functions.setDefined id true } }

/-- The body has been lowered. -/
def finished (w : Work) : Work := { w with builder := w.builder.leave }

/-- The body was refused and is dropped. -/
def dropped (w : Work) (id : EntryId) (func : FuncId) : Work :=
  { w with
    builder := ⟨w.builder.module.update func Function.clearBody, none⟩
    symbols := { w.symbols with functions := w.symbols.functions.markUndefined id } }

end Work

/-- A definition gets as far as its body. -/
structure Begun (env : Env) (decl : FunctionDecl) (w : Work) (p : Prototype) (id : EntryId)
    (e : Entry) (w₁ : Work) : Prop where
  head : Prototype.ofDecl env.types decl.prototype = .ok p
  internal : p.isExternal = false
  declared : DeclaredEntry env.types p w id w₁
  entry : w₁.symbols.functions.entries[id]? = some e

/-- All ends that a definition can come to. -/
inductive DefinitionRun (env : Env) (decl : FunctionDecl) (w : Work) :
    Except Fault FuncId → Work → Prop
  | head {e : Fault} (h : Prototype.ofDecl env.types decl.prototype = .error e) :
    DefinitionRun env decl w (.error e) w
  | external {p : Prototype} (hhead : Prototype.ofDecl env.types decl.prototype = .ok p)
    (h : p.isExternal = true) :
    DefinitionRun env decl w (.error ((Cause.invalidOperation
      s!"external function '{p.name}' cannot have a body").atSpan decl.span)) w
  | undeclared {p : Prototype} {e : Fault}
    (hhead : Prototype.ofDecl env.types decl.prototype = .ok p)
    (hinternal : p.isExternal = false) (h : DeclareRefused env.types p w e) :
    DefinitionRun env decl w (.error e) w
  | redefined {p : Prototype} {id : EntryId} {e : Entry} {w₁ : Work}
    (h : Begun env decl w p id e w₁) (hdefined : e.defined = true) :
    DefinitionRun env decl w
      (.error ((Cause.functionRedefinition e.prototype.name).atSpan decl.span)) w₁
  | finished {p : Prototype} {id : EntryId} {e : Entry} {w₁ w₂ : Work}
    (h : Begun env decl w p id e w₁) (hdefined : e.defined = false)
    (hbody : (Lower.frameBody env p e.func decl).run (w₁.marked id) = (.ok (), w₂)) :
    DefinitionRun env decl w (.ok e.func) w₂.finished
  | dropped {p : Prototype} {id : EntryId} {e : Entry} {w₁ w₂ : Work} {fault : Fault}
    (h : Begun env decl w p id e w₁) (hdefined : e.defined = false)
    (hbody : (Lower.frameBody env p e.func decl).run (w₁.marked id) = (.error fault, w₂))
    {f : Function} (hf : w₂.builder.module.function? e.func = some f) :
    DefinitionRun env decl w (.error fault) (w₂.dropped id e.func)
  /-- The function that an entry names is not there. -/
  | lost {p : Prototype} {id : EntryId} {e : Entry} {w₁ w₂ w₃ : Work} {fault : Fault}
    {err : IR.Error} (h : Begun env decl w p id e w₁) (hdefined : e.defined = false)
    (hbody : (Lower.frameBody env p e.func decl).run (w₁.marked id) = (.error fault, w₂))
    (hf : w₂.builder.module.function? e.func = none) :
    DefinitionRun env decl w (.error err.toFault) w₃

theorem Functions.markDefined_meets {t : Functions} (he : t.entries[id]? = some e) (span : Span) :
    t.markDefined id span =
      if e.defined then .error ((Cause.functionRedefinition e.prototype.name).atSpan span)
      else .ok (t.setDefined id true) := by
  unfold Functions.markDefined
  rw [Functions.entry_eq_ok.2 he]
  show (if e.defined = true then _ else _) = _
  split <;> rfl

/-- The part of a definition behind the declaration. -/
def Lower.define (env : Env) (decl : FunctionDecl) (p : Prototype) (id : EntryId) :
    Lower FuncId := do
  let e ← (← symbols).functions.entry id
  let functions ← (← symbols).functions.markDefined id decl.span
  setFunctions functions
  try
    frameBody env p e.func decl
    Build.leave
    pure e.func
  catch fault =>
    Build.leave
    setFunctions ((← symbols).functions.markUndefined id)
    Build.clearBody e.func
    throw fault

/-- A function that has been declared is marked, unless it has a body. -/
theorem Lower.mark_run {k : Entry → Lower α} (span : Span)
    (h : w.symbols.functions.entries[id]? = some e) :
    Act.run (do
      let e ← (liftM ((← symbols).functions.entry id) : Lower Entry)
      let functions ← (liftM ((← symbols).functions.markDefined id span) : Lower Functions)
      setFunctions functions
      k e) w =
      if e.defined then
        (.error ((Cause.functionRedefinition e.prototype.name).atSpan span), w)
      else (k e).run (w.marked id) := by
  rw [Act.run_bind, show symbols.run w = (.ok w.symbols, w) from rfl]
  show Act.run (Act.ofExcept (w.symbols.functions.entry id) >>= _) w = _
  rw [Functions.entry_eq_ok.2 h, Act.run_bind, Act.run_ofExcept]
  show Act.run (symbols >>= _) w = _
  rw [Act.run_bind, show symbols.run w = (.ok w.symbols, w) from rfl]
  show Act.run (Act.ofExcept (w.symbols.functions.markDefined id span) >>= _) w = _
  rw [Functions.markDefined_meets h]
  -- The entry is there, so only a second definition is refused.
  by_cases hdefined : e.defined = true
  · rw [if_pos hdefined, if_pos hdefined]
    rfl
  · rw [if_neg hdefined, if_neg hdefined]
    rfl

theorem Lower.mark_meets {k : Entry → Lower α} {Q : α → Work → Prop} {span : Span}
    (h : w.symbols.functions.entries[id]? = some e)
    (hdefined : e.defined = true → E ((Cause.functionRedefinition e.prototype.name).atSpan span) w)
    (hk : e.defined = false → (k e).Meets (w.marked id) Q E) :
    (do
      let e ← (liftM ((← symbols).functions.entry id) : Lower Entry)
      let functions ← (liftM ((← symbols).functions.markDefined id span) : Lower Functions)
      setFunctions functions
      k e : Lower α).Meets w Q E := by
  have hrun := mark_run (k := k) span h
  unfold Act.Meets
  cases hd : e.defined with
  | true =>
    rw [hrun, if_pos hd]
    exact hdefined hd
  | false =>
    rw [hrun, if_neg (by simp [hd])]
    exact hk hd

/-- What becomes of a function whose body is refused. -/
def Lower.dropBody (id : EntryId) (func : FuncId) (fault : Fault) : Lower FuncId := do
  Build.leave
  setFunctions ((← symbols).functions.markUndefined id)
  Build.clearBody func
  throw fault

/-- A body is dropped, unless there is no function that could have one. -/
theorem Lower.dropBody_meets {func : FuncId} {fault : Fault} {t : Work}
    (hdrop : ∀ f, t.builder.module.function? func = some f → E fault (t.dropped id func))
    (hlost : t.builder.module.function? func = none → ∀ (err : IR.Error) (u : Work),
      u.diagnostics = t.diagnostics → E err.toFault u) :
    (dropBody id func fault).Meets t (fun _ _ => False) E := by
  refine Act.meets_bind.2 (Lower.meets_build.2 (Act.meets_modify.2 ?_))
  refine Act.Meets.bind (Q := fun s u => s = t.symbols ∧ u = t.finished) ⟨rfl, rfl⟩ fun s u hu => ?_
  obtain ⟨rfl, rfl⟩ := hu
  refine Act.meets_bind.2 (Act.meets_modify.2 (Act.meets_bind.2 (Lower.meets_build.2 ?_)))
  refine Act.meets_bind.2 (Act.meets_bind.2 (Act.meets_get.2 (Act.meets_ofExcept.2 ⟨?_, ?_⟩)))
  · intro f hf
    exact hdrop f (Module.function_eq_ok.1 hf)
  · intro err herr
    -- The body can be cleared exactly if the function is there.
    cases hfound : t.builder.module.function? func with
    | none => exact hlost hfound _ _ rfl
    | some f =>
      have hok : t.builder.module.function func = .ok f := Module.function_eq_ok.2 hfound
      cases hok.symm.trans herr

/-- A function that is not yet defined gets a body, or the body is dropped. -/
theorem Lower.define_meets {env : Env} {decl : FunctionDecl} {p : Prototype}
    {Q : FuncId → Work → Prop} (hentry : w.symbols.functions.entries[id]? = some e)
    (hdefined : e.defined = true →
      E ((Cause.functionRedefinition e.prototype.name).atSpan decl.span) w)
    (hbody : e.defined = false → (Lower.frameBody env p e.func decl).Meets (w.marked id)
      (fun _ w' => Q e.func w'.finished) fun fault w' =>
        (∀ f, w'.builder.module.function? e.func = some f → E fault (w'.dropped id e.func)) ∧
        (w'.builder.module.function? e.func = none → ∀ (err : IR.Error) t, E err.toFault t)) :
    (Lower.define env decl p id).Meets w Q E := by
  refine mark_meets hentry hdefined fun hd => Act.meets_tryCatch.2 ?_
  refine Act.meets_bind.2 ((hbody hd).mono (fun _ w' hQ => hQ) fun fault w' hE => ?_)
  -- The handler refuses again, with the same fault if there is a body to drop.
  exact (dropBody_meets hE.1 fun hnone err u _ => hE.2 hnone err u).mono (fun _ _ h => h.elim)
    fun _ _ h => h

/-- Every definition comes to one of the listed ends. -/
theorem Lower.function_meets (env : Env) (decl : FunctionDecl) (w : Work) :
    (Lower.function env decl).Meets w (fun func w' => DefinitionRun env decl w (.ok func) w')
      fun e w' => DefinitionRun env decl w (.error e) w' := by
  refine Act.meets_bind.2 (Act.meets_ofExcept.2 ⟨fun p hp => ?_, fun e he => .head he⟩)
  refine Act.meets_bind.2 (Act.meets_refuseIf.2 ⟨fun hext => .external hp hext, fun hint => ?_⟩)
  have hint : p.isExternal = false := by simpa using hint
  -- Up to here a definition has changed nothing.
  refine Act.meets_bind.2 ((Lower.declare_meets env.types p w).mono (fun id w₁ hdecl => ?_)
    fun e w' he => ?_)
  · obtain ⟨e, hentry, -⟩ := hdecl.entry
    have hbegun : Begun env decl w p id e w₁ := ⟨hp, hint, hdecl, hentry⟩
    refine Lower.define_meets hentry (fun hdefined => .redefined hbegun hdefined) fun hundef =>
      Act.meets_of_run (fun _ w₂ hbody => .finished hbegun hundef hbody) fun fault w₂ hbody => ⟨?_, ?_⟩
    · exact fun f hf => .dropped hbegun hundef hbody hf
    · exact fun hf err w₃ => .lost hbegun hundef hbody hf
  · rw [he.1]
    exact .undeclared hp hint he.2

/-- A function that can be declared and is not yet defined gets a body. -/
structure Definable (env : Env) (decl : FunctionDecl) (w : Work) (p : Prototype) (id : EntryId)
    (e : Entry) (w₁ : Work) : Prop where
  head : Prototype.ofDecl env.types decl.prototype = .ok p
  internal : p.isExternal = false
  declared : (Lower.declare env.types p).run w = (.ok id, w₁)
  entry : w₁.symbols.functions.entries[id]? = some e
  undefined : e.defined = false

/-- What a definition does is what its body does. -/
theorem Lower.function_of_body {env : Env} {decl : FunctionDecl} {p : Prototype}
    {Q : FuncId → Work → Prop} (h : Definable env decl w p id e w₁)
    (hbody : (Lower.frameBody env p e.func decl).Meets (w₁.marked id)
      (fun _ w₂ => Q e.func w₂.finished) fun fault w₂ =>
        (∀ f, w₂.builder.module.function? e.func = some f → E fault (w₂.dropped id e.func)) ∧
        (w₂.builder.module.function? e.func = none → ∀ (err : IR.Error) t, E err.toFault t)) :
    (Lower.function env decl).Meets w Q E := by
  refine Act.meets_bind.2 (Act.meets_ofExcept.2 ⟨fun p' hp => ?_, fun err herr =>
    absurd (h.head.symm.trans herr) nofun⟩)
  obtain rfl : p' = p := by simpa using hp.symm.trans h.head
  refine Act.meets_bind.2 (Act.meets_refuseIf.2 ⟨fun hext =>
    absurd (h.internal.symm.trans hext) nofun, fun _ => ?_⟩)
  refine Act.meets_bind.2 (Act.meets_of_run (fun id' w' hrun => ?_) fun err w' hrun =>
    absurd (h.declared.symm.trans hrun) nofun)
  rw [h.declared] at hrun
  cases hrun
  -- Every check in front of the body is known to pass.
  refine Lower.define_meets h.entry (fun hdefined => ?_) fun _ => hbody
  rw [h.undefined] at hdefined
  cases hdefined

end Shading
