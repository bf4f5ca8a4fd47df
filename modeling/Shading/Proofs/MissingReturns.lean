import Shading.Proofs.ClosedBodies
import Shading.Proofs.Completion

/-! # Missing returns

    At the end of a body, lowering asks the graph that it has built whether
    control can reach the block it stands in.  Main result: the answer is the
    one that the structure of the source gives
    (`Lower.missing_return_iff_body_completes`). -/

namespace Shading

open IR

/-! ## The end of code in a graph -/

/-- Control can reach the open end of the code of a body exactly if the
    structure of the code says so. -/
theorem IR.Code.isReachable_iff_completes {F : Function} {C : Code} {q : Point} (hF : F.Regular)
    (hclean : F.Clean) (hlies : C.lies F none (.start 0) q)
    (hopen : F.isTerminated q.block = false) :
    F.isReachable q.block = true ↔ C.completes = true := by
  have hslots : ∀ ch, F.Reaches Code.chosen (.start ((), ch))
      ((Point.start 0).config F 0 ((), ch)) := fun ch =>
    Function.start_reaches (Code.execAll_chosen _ ch)
  constructor
  · intro hreach
    obtain ⟨visited, hwalk⟩ := Function.path_iff_walk.1 (Function.path_of_isReachable hreach)
    have hkeeps : F.Keeps Interp.free (fun _ => True) fun _ _ => True :=
      ⟨fun _ => trivial, fun _ _ => trivial, fun _ _ _ => trivial, fun _ _ => trivial,
        fun _ => trivial⟩
    -- A run that follows the walk runs off the open block, if it is not stuck before.
    obtain ⟨ch, hstuck⟩ : ∃ ch, F.GetsStuck Code.chosen (.start ((), ch)) := by
      obtain ⟨ch, hrun⟩ := hwalk.run hclean hkeeps (fun _ _ _ _ => trivial) (fun _ => true) 0 ()
      refine ⟨ch, ?_⟩
      rcases hrun with hstuck | ⟨_, -, hto⟩
      · exact hstuck
      · have hfront : ∀ i ∈ (F.blockIds q.block).take (F.blockIds q.block).length,
            True ∧ ∀ x, F.inst? i = some x → x.op.isTerminator = false := by
          intro i hi
          rw [List.take_length] at hi
          exact ⟨trivial, fun x hx => hclean.of_open hopen hi hx⟩
        rcases Function.block_run hkeeps q.block (visited.getLastD 0) () _ (Nat.le_refl _) hfront with
          hstuck | ⟨_, -, hend⟩
        · exact Function.GetsStuck.after hto (hstuck _)
        · refine Function.GetsStuck.after (hto.trans (hend _)) ⟨1, ?_⟩
          have hnone : F.instAt? q.block (F.blockIds q.block).length = none := by
            cases hat : F.instAt? q.block (F.blockIds q.block).length with
            | none => rfl
            | some x =>
              obtain ⟨hget, -⟩ := Function.instAt?_eq_some.1
                (show F.instAt? q.block _ = some (x.1, x.2) from hat)
              simp at hget
          rw [Function.run_one]
          unfold Function.step
          simp only [hnone]
    obtain ⟨m, hm⟩ := hstuck
    have hmatch := Code.Matches.after (hslots ch)
      (Code.lies_run (M := Code.chosen) (n := m) hF.innerSlots C hlies ((), ch) 0)
    have hsafe := Code.run_chosen_safe (n := m) C ((), ch)
    cases ho : C.run Code.chosen m ((), ch) with
    | done s => exact Code.completes_of_run ho
    | jumped j s =>
      rw [ho] at hmatch
      obtain ⟨tg, came, htg, -⟩ := hmatch
      cases htg
    | returned r =>
      rw [ho] at hmatch
      exact absurd ⟨m, hm⟩ (Function.Returns.not_getsStuck hmatch)
    | stuck => exact absurd ho hsafe.ne_stuck
    | timeout =>
      rw [ho] at hmatch
      obtain ⟨k, c, hk, hbusy⟩ := hmatch
      rw [Function.run_ended hm (by simp) hk] at hbusy
      cases hbusy
  · intro hcomp
    obtain ⟨ch, hdone⟩ := Code.run_of_completes C hcomp fun _ => true
    have hmatch := Code.Matches.after (hslots ch)
      (Code.lies_run (M := Code.chosen) (n := 1) hF.innerSlots C hlies ((), ch) 0)
    rw [hdone] at hmatch
    obtain ⟨came, k, hk⟩ := hmatch
    exact Function.isReachable_of_path hF (Function.run_path hclean hk Relation.ReflTransGen.refl)

/-! ## The exit of a body -/

namespace Lower

variable {options : Options} {p : Prototype} {func : FuncId} {decl : FunctionDecl} {w w₁ : Work}
  {f : Function}

/-- Where a body stands when its statements have been lowered: in a block
    that is ended or not as the code says, and that control can reach if the
    statements complete. -/
theorem untilExit_reaches (hf : w.builder.module.function? func = some f) (hblocks : f.blocks = [])
    (hrun : (untilExit ⟨.builtins, options⟩ p func decl).run w = (.ok (), w₁)) :
    ∃ S : Site func, w₁.builder = S.builder ∧
      (S.body.isTerminated S.block = true → Stmt.allComplete decl.body = false) ∧
      (S.body.isTerminated S.block = false →
        S.body.isReachable S.block = Stmt.allComplete decl.body) := by
  obtain ⟨S, hS, hbody, hblock, hopen, hsound, hpoint, hrun⟩ := entry_run hf hblocks hrun
  obtain ⟨s, t₁, hs, hrun⟩ := Act.run_bind_eq_ok.1 hrun
  obtain ⟨rfl, rfl⟩ := symbols_run hs
  obtain ⟨_, t₂, hset, hrun⟩ := Act.run_bind_eq_ok.1 hrun
  obtain rfl := setScopes_run hset
  obtain ⟨s, t₃, hs, hrun⟩ := Act.run_bind_eq_ok.1 hrun
  obtain ⟨rfl, rfl⟩ := symbols_run hs
  obtain ⟨_, t₄, hmodify, hrun⟩ := Act.run_bind_eq_ok.1 hrun
  obtain rfl := Act.run_modify_eq_ok.1 hmodify
  obtain ⟨_, t₅, hargs, hstmts⟩ := Act.run_bind_eq_ok.1 hrun
  obtain ⟨S₁, S₂, l, T, top, top', -, hw₂, he₁, he₂, hcode⟩ :=
    statements_run (Work.stands_entry hsound w p w.symbols.scopes) hopen hargs hstmts
  have he := he₁.seq he₂
  -- Arguments always complete, so it is up to the statements.
  have hcompletes : (Code.seq (.line l) T).completes = Stmt.allComplete decl.body := by
    obtain ⟨-, hstmts⟩ := hcode _ (.self S₂)
    rw [← hstmts.completion.1]
    simp [Code.completes]
  have hregular₀ := Function.withEntry_regular hblocks
  rw [← hbody] at hregular₀
  have hpos := he.edits.regular S.pos hregular₀
  -- A body that starts from nothing is regular and clean when its statements end.
  have hclean := Edits.clean he.edits S.valid S.pos (hbody ▸ (Function.withEntry_closed hblocks).clean)
  refine ⟨S₂, hw₂.builder, fun hended => ?_, fun hopen₂ => ?_⟩
  · rw [← hcompletes]
    exact Code.completes_of_ends _ (he.ends ▸ hended)
  · have hlies := he.lies S₂.body (.refl _)
    rw [hpoint] at hlies
    rw [← hcompletes, Bool.eq_iff_iff]
    exact Code.isReachable_iff_completes hpos hclean hlies hopen₂

/-- The exit of a body with a result looks at the block it stands in. -/
theorem implicitExit_meets {S : Site func} (hw : w.builder = S.builder)
    (hret : p.ret ≠ Builtin.void.id) (env : Env) (span : Span) :
    (implicitExit env p func span).Meets w
      (fun _ _ => S.body.isTerminated S.block = true ∨ S.body.isTerminated S.block = false ∧
        S.body.isReachable S.block = false)
      fun e _ => e = (Cause.missingReturn p.name).atSpan span ∧
        S.body.isTerminated S.block = false ∧ S.body.isReachable S.block = true := by
  have hended : isTerminated.run w = (.ok (S.body.isTerminated S.block), w) := by
    have hsome : isTerminated.run w = (.ok w.builder.isTerminated, w) := rfl
    obtain ⟨h, -⟩ := isTerminated_run hw hsome
    rw [hsome, h]
  refine Act.meets_bind.2 (Act.meets_of_answer hended ?_)
  refine Act.meets_onlyIf.2 ⟨fun hopen => ?_, fun hends => .inl (by simpa using hends)⟩
  have hopen : S.body.isTerminated S.block = false := by simpa using hopen
  refine Act.meets_bind.2 (meets_build.2 ?_)
  rw [hw]
  refine Act.meets_bind.2 (Act.meets_of_answer (Build.cursor_at S) ?_)
  refine Act.meets_bind.2 (meets_build.2 (Act.meets_of_answer (Build.function_at S) ?_))
  -- An end that control gets to needs a value, and any other end is sealed.
  by_cases hreach : S.body.isReachable S.block = true
  · simp only [if_pos hreach]
    refine Act.meets_bind.2 (Act.meets_refuseIf.2 ⟨fun _ => ⟨rfl, hopen, hreach⟩, fun h =>
      absurd hret h⟩)
  · simp only [if_neg hreach]
    refine meets_build.2 (Act.meets_bind.2 (Act.meets_of_answer (Build.emit_open hopen _ _) ?_))
    exact .inr ⟨hopen, by simpa using hreach⟩

/-- A body that is lowered up to its exit lacks a `return` exactly if its
    statements can complete, and is otherwise accepted. -/
theorem frameBody_completes (hret : p.ret ≠ Builtin.void.id)
    (hf : w.builder.module.function? func = some f) (hblocks : f.blocks = [])
    (hbody : (untilExit ⟨.builtins, options⟩ p func decl).run w = (.ok (), w₁)) :
    (frameBody ⟨.builtins, options⟩ p func decl).Meets w
      (fun _ _ => Stmt.allComplete decl.body = false)
      fun e _ => e = (Cause.missingReturn p.name).atSpan decl.span ∧
        Stmt.allComplete decl.body = true := by
  obtain ⟨S, hS, hends, hopen⟩ := untilExit_reaches hf hblocks hbody
  -- The exit is refused exactly where the end of the body can still be reached.
  have hexit : (checkedBody ⟨.builtins, options⟩ p func decl).Meets w
      (fun _ _ => Stmt.allComplete decl.body = false)
      fun e _ => e = (Cause.missingReturn p.name).atSpan decl.span ∧
        Stmt.allComplete decl.body = true := by
    refine Act.meets_bind.2 (Act.meets_of_answer hbody (Act.meets_bind.2 ?_))
    have hmeets := implicitExit_meets hS hret ⟨.builtins, options⟩ decl.span
    refine Act.meets_of_run (fun _ w₂ hrun => ?_) fun e w₂ hrun => ?_
    · -- Once the exit is there, the checks behind it find nothing wrong.
      obtain ⟨g, -, -, -, -, -, hcheck⟩ := exit_closes hf hblocks hbody hrun
      refine Act.meets_of_answer hcheck ?_
      rcases hmeets.of_ok hrun with hended | ⟨hnot, hreach⟩
      · exact hends hended
      · rw [← hopen hnot]
        exact hreach
    · obtain ⟨he, hnot, hreach⟩ := hmeets.of_error hrun
      refine ⟨he, ?_⟩
      rw [← hopen hnot]
      exact hreach
  refine (frameBody_meets hexit).mono (fun _ t ht => ?_) fun e t ht => ?_
  · obtain ⟨u, -, hu⟩ := ht
    exact hu
  · obtain ⟨u, -, hu⟩ := ht
    exact hu

/-- Whether a function lacks a `return` is decided by the structure of its
    source.  A function with a result that can be declared, is not yet defined
    and has no blocks, and whose arguments and statements are lowered, is
    refused for a missing `return` exactly if its body can complete; otherwise
    it is accepted.  The variables around the function may be any. -/
theorem missing_return_iff_body_completes {id : EntryId} {e : Entry} {w₂ : Work}
    (hdef : Definable ⟨.builtins, options⟩ decl w p id e w₁) (hret : p.ret ≠ Builtin.void.id)
    (hf : w₁.builder.module.function? e.func = some f) (hblocks : f.blocks = [])
    (hbody : (untilExit ⟨.builtins, options⟩ p e.func decl).run (w₁.marked id) = (.ok (), w₂)) :
    ((Lower.function ⟨.builtins, options⟩ decl).run w).1 =
      if Stmt.allComplete decl.body then
        .error ((Cause.missingReturn p.name).atSpan decl.span)
      else .ok e.func := by
  have hcompletes := frameBody_completes (w := w₁.marked id) hret hf hblocks hbody
  have hframes := (frameBody_frames ⟨.builtins, options⟩ p e.func decl (w₁.marked id)).1
  obtain ⟨f', hf', -⟩ := hframes.head f hf
  -- The function is not lost on the way, so a refusal is that of its body.
  have hmeets : (Lower.function ⟨.builtins, options⟩ decl).Meets w
      (fun func _ => Stmt.allComplete decl.body = false ∧ func = e.func)
      fun fault _ => fault = (Cause.missingReturn p.name).atSpan decl.span ∧
        Stmt.allComplete decl.body = true := by
    refine function_of_body hdef (Act.meets_of_run (fun _ w₃ hrun => ?_) fun fault w₃ hrun => ?_)
    · exact ⟨hcompletes.of_ok hrun, rfl⟩
    · refine ⟨fun _ _ => hcompletes.of_error hrun, fun hlost => ?_⟩
      rw [hrun] at hf'
      exact absurd (hlost.symm.trans hf') nofun
  rcases hrun : (Lower.function ⟨.builtins, options⟩ decl).run w with ⟨r, w₃⟩
  cases r with
  | ok func =>
    obtain ⟨hcomp, rfl⟩ := hmeets.of_ok hrun
    rw [hcomp]
    rfl
  | error fault =>
    obtain ⟨rfl, hcomp⟩ := hmeets.of_error hrun
    rw [hcomp]
    rfl

end Lower

/-- An endless loop around another one.  What is behind the last conditional
    of the loop is dropped if both of its branches leave. -/
def seek (found : Stmt) : FunctionDecl :=
  let name (s : String) : Ident := ⟨s, .unknown⟩
  let b : Expr := .var (name "b")
  { prototype := ⟨name "seek", none, ⟨"int", .unknown⟩,
      [⟨name "b", ⟨"bool", .unknown⟩, .unknown⟩], .unknown⟩
    body := [
      .loop (.assign (name "b") (.literal (.bool true) .unknown) .unknown)
        (.block [
          .loop (.literal (.bool true) .unknown)
            (.ifThenElse b (.breakLoop .unknown) (.continueLoop .unknown) .unknown) .unknown,
          .ifThenElse b found (.continueLoop .unknown) .unknown,
          .breakLoop .unknown] .unknown) .unknown]
    bodySpan := .unknown }

/-- A `return` inside the outer loop is enough, and a `break` out of it is
    not. -/
theorem seek_return_check :
    ((Lower.function ⟨.builtins, .default⟩
      (seek (.ret (some (.literal (.int 1) .unknown)) .unknown))).run (.initial "scene")).1 = .ok 0 ∧
    ((Lower.function ⟨.builtins, .default⟩ (seek (.breakLoop .unknown))).run (.initial "scene")).1 =
      .error ((Cause.missingReturn "seek").atSpan .unknown) := by
  let p : Prototype := ⟨"seek", none, Builtin.int.id, [⟨"b", Builtin.bool.id, .unknown⟩], .unknown⟩
  let w := Work.initial "scene"
  let w₁ := ((Lower.declare .builtins p).run w).2
  let e : Entry := ⟨p, 0, false⟩
  have hdecl : ((Lower.declare .builtins p).run w).1 = .ok 0 := by decide +kernel
  have hhead : Prototype.ofDecl .builtins (seek (.breakLoop .unknown)).prototype = .ok p := by
    decide +kernel
  have hdefinable : ∀ found, Definable ⟨.builtins, .default⟩ (seek found) w p 0 e w₁ := fun found =>
    ⟨hhead, rfl, Act.run_eq_of_fst hdecl, by decide +kernel, rfl⟩
  have hf : w₁.builder.module.function? 0 =
      some (.declaration "seek$b" ⟨[.bool], .i32⟩ .internal) := by decide +kernel
  constructor
  · have hbody : ((Lower.untilExit ⟨.builtins, .default⟩ p 0
        (seek (.ret (some (.literal (.int 1) .unknown)) .unknown))).run (w₁.marked 0)).1 = .ok () := by
      decide +kernel
    exact (Lower.missing_return_iff_body_completes (hdefinable _) (by decide) hf rfl
      (Act.run_eq_of_fst hbody)).trans (by decide +kernel)
  · have hbody : ((Lower.untilExit ⟨.builtins, .default⟩ p 0 (seek (.breakLoop .unknown))).run
        (w₁.marked 0)).1 = .ok () := by
      decide +kernel
    exact (Lower.missing_return_iff_body_completes (hdefinable _) (by decide) hf rfl
      (Act.run_eq_of_fst hbody)).trans (by decide +kernel)

end Shading
