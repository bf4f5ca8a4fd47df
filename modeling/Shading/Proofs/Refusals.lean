import Shading.Proofs.Operations

/-! # Refused operations

    An operation of a builder checks its operands, the function it calls, the
    cursor and the block in turn, and changes the module only behind the last
    check.  So a refusal, at whichever check, has no effect
    (`Operation.act_atomic`), and what a sequence of operations builds is
    what those of them build that are accepted
    (`refused_operations_have_no_effect`). -/

namespace Shading.IR

namespace Build

variable {b : Builder} {α β : Type}

/-- A refusal leaves the builder as it was. -/
def Atomic (x : Build α) (b : Builder) : Prop := x.Meets b (fun _ _ => True) fun _ t => t = b

/-- A check may stand before anything. -/
theorem Checks.atomic {x : Build α} {Q : α → Prop} {k : α → Build β} (hx : Checks x b Q)
    (hk : ∀ a, Atomic (k a) b) : Atomic (x >>= k) b := by
  apply Act.Meets.bind hx
  rintro a t ⟨rfl, -⟩
  exact hk a

/-- Only an answer may stand behind a change. -/
theorem Atomic.answer {x : Build α} (hx : Atomic x b) (g : α → β) : Atomic (do return g (← x)) b :=
  Act.Meets.bind hx fun _ _ _ => trivial

theorem update_atomic (func : FuncId) (g : Function → Function) : Atomic (update func g) b :=
  trivial

theorem Emits.atomic {x : Build α} (hx : Emits x b) : Atomic x b :=
  hx.mono (fun _ _ _ => trivial) fun _ _ h => h

/-! ## Operations -/

theorem declare_atomic (name : String) (sig : Signature) (linkage : Linkage) :
    Atomic (declare name sig linkage) b :=
  (declare_adds name sig linkage).mono (fun _ _ _ => trivial) fun _ _ h => h

theorem alloca_atomic (ty : Ty) (name : String) : Atomic (alloca ty name) b :=
  (alloca_slots ty name).mono (fun _ _ _ => trivial) fun _ _ h => h

end Build

/-- Every operation is refused before it changes anything. -/
theorem Operation.act_atomic (b : Builder) (o : Operation) : Build.Atomic o.act b := by
  cases hemission : o.isEmission with
  | true => exact (o.act_emits b hemission).atomic
  | false =>
    cases o with
    | declare name sig linkage => exact (Build.declare_atomic name sig linkage).answer _
    | appendBlock func label =>
      exact Build.Atomic.answer ((Build.function_checks func).atomic fun f =>
        (Build.update_atomic func _).answer fun _ => f.blocks.length) _
    | moveTo func block => exact trivial
    | leave => exact trivial
    | clearBody func =>
      exact (Build.function_checks func).atomic fun _ => Build.update_atomic func _
    | alloca ty name => exact (Build.alloca_atomic ty name).answer _
    | _ => cases hemission

/-! ## Sequences of operations -/

/-- The operations that are accepted, each where those before it lead. -/
def Builder.accepted (b : Builder) : List Operation → List Operation
  | [] => []
  | o :: os =>
    if (o.act.run b).1.isOk then o :: (b.perform o).accepted os else (b.perform o).accepted os

/-- What is refused can be left out. -/
theorem Builder.performAll_accepted (b : Builder) (os : List Operation) :
    b.performAll (b.accepted os) = b.performAll os := by
  induction os generalizing b with
  | nil => rfl
  | cons o os ih =>
    have hatomic := o.act_atomic b
    unfold accepted
    rcases hrun : o.act.run b with ⟨r, t⟩
    cases r with
    | ok a => exact ih (b.perform o)
    | error e =>
      -- A refused operation leaves the builder as it was, so it can be left out.
      have hsame : b.perform o = b := by
        unfold perform
        rw [hrun]
        exact hatomic.of_error hrun
      show b.performAll ((b.perform o).accepted os) = (b.perform o).performAll os
      rw [hsame]
      exact ih b

/-- Wherever a builder stands and whatever it has built, an operation that is
    refused leaves the module and the cursor as they were.  So a sequence of
    operations has the effect of those that are accepted. -/
theorem refused_operations_have_no_effect (b : Builder) :
    (∀ (o : Operation) (e : Error) (t : Builder), o.act.run b = (.error e, t) →
      t.module = b.module ∧ t.cursor = b.cursor) ∧
        ∀ os, b.performAll (b.accepted os) = b.performAll os := by
  refine ⟨fun o e t hrun => ?_, b.performAll_accepted⟩
  rw [(o.act_atomic b).of_error hrun]
  exact ⟨rfl, rfl⟩

/-- One function and one return, among declarations, operands, calls, slots
    and blocks that are all refused. -/
def muddled : List Operation :=
  [.ret none, .declare "f" ⟨[.f32], .f32⟩ .internal, .declare "f" ⟨[], .void⟩ .internal,
    .appendBlock 0 "entry", .moveTo 0 0, .store (.arg 0) (.arg 0), .call 0 [], .alloca .void "x",
    .ret (some (.arg 0)), .br 0, .appendBlock 7 "lost"]

theorem muddled_has_no_effect :
    (Builder.start (.empty "m")).performAll muddled =
        (Builder.start (.empty "m")).performAll
          [.declare "f" ⟨[.f32], .f32⟩ .internal, .appendBlock 0 "entry", .moveTo 0 0,
            .ret (some (.arg 0))] ∧
      ∃ t, (Operation.br 0).act.run ((Builder.start (.empty "m")).performAll muddled) =
          (.error (.blockTerminated "entry"), t) ∧
        t.module = ((Builder.start (.empty "m")).performAll muddled).module ∧
        t.cursor = some ⟨0, 0⟩ := by
  have haccepted : (Builder.start (.empty "m")).accepted muddled =
      [.declare "f" ⟨[.f32], .f32⟩ .internal, .appendBlock 0 "entry", .moveTo 0 0,
        .ret (some (.arg 0))] := by decide +kernel
  have hcursor : ((Builder.start (.empty "m")).performAll muddled).cursor = some ⟨0, 0⟩ := by
    decide +kernel
  have hrun := Act.run_eq_of_fst (r := .error (.blockTerminated "entry"))
    (x := (Operation.br 0).act) (s := (Builder.start (.empty "m")).performAll muddled)
    (by decide +kernel)
  refine ⟨?_, _, hrun, ?_⟩
  · rw [← haccepted]
    exact ((refused_operations_have_no_effect (Builder.start (.empty "m"))).2 muddled).symm
  · rw [← hcursor]
    exact (refused_operations_have_no_effect _).1 _ _ _ hrun

end Shading.IR
