import Shading.Lower.Unit
import Shading.Proofs.ClosedBodies
import Shading.Proofs.Mangling

/-! # Sessions

    Several units are compiled one after the other into one module, and the
    functions of earlier units stay known to later ones.  What holds at the
    start and is kept by every item holds after each item of each unit
    (`session_induction`). -/

namespace Shading

open IR

/-- A unit and the options it is compiled with. -/
structure SourceUnit where
  options : Options
  items : List Item
  deriving Inhabited

namespace SourceUnit

/-- Units are compiled over the built-in types. -/
def env (u : SourceUnit) : Env := ⟨.builtins, u.options⟩

end SourceUnit

/-- What has been compiled of the last unit after the units before it, with
    no function known at first. -/
def session (m : Module) (units : List SourceUnit) : Progress :=
  units.foldl (fun p u => compileUnit u.env u.items p.work.builder.module p.work.symbols)
    (.start m .empty)

/-- No function is being lowered. -/
structure Work.Idle (w : Work) : Prop where
  scopes : w.symbols.scopes = .empty
  control : w.symbols.control = []

theorem Progress.step_idle (env : Env) (p : Progress) (item : Item) :
    (p.step env item).work.Idle := by
  unfold Progress.step
  split <;> exact ⟨rfl, rfl⟩

section

variable {I : Work → Prop} {units : List SourceUnit}

/-- What every item of a unit keeps holds after the unit. -/
theorem compileUnit_induction {u : SourceUnit} {m : Module} {s : Symbols}
    (hidle : (Progress.start m s).work.Idle) (start : I (Progress.start m s).work)
    (step : ∀ item ∈ u.items, ∀ p : Progress, p.work.Idle → I p.work →
      I (p.step u.env item).work) :
    (compileUnit u.env u.items m s).work.Idle ∧ I (compileUnit u.env u.items m s).work := by
  unfold compileUnit
  generalize Progress.start m s = p at hidle start
  revert step
  generalize u.items = items
  intro step
  induction items generalizing p with
  | nil => exact ⟨hidle, start⟩
  | cons item rest ih =>
    exact ih _ (p.step_idle u.env item) (step item List.mem_cons_self p hidle start)
      fun i hi => step i (List.mem_cons_of_mem _ hi)

/-- What holds at the start, does not depend on earlier diagnostics and is kept
    by every item holds after a session. -/
theorem session_induction {m : Module} (start : I (Progress.start m .empty).work)
    (restart : ∀ w : Work, w.Idle → I w → I (Progress.start w.builder.module w.symbols).work)
    (step : ∀ u ∈ units, ∀ item ∈ u.items, ∀ p : Progress, p.work.Idle → I p.work →
      I (p.step u.env item).work) :
    (session m units).work.Idle ∧ I (session m units).work := by
  unfold session
  have hidle : (Progress.start m .empty).work.Idle := ⟨rfl, rfl⟩
  generalize Progress.start m .empty = p at hidle start
  induction units generalizing p with
  | nil => exact ⟨hidle, start⟩
  | cons u rest ih =>
    have hunit := compileUnit_induction (u := u) (m := p.work.builder.module)
      (s := p.work.symbols) ⟨hidle.scopes, hidle.control⟩ (restart p.work hidle start)
      (step u List.mem_cons_self)
    exact ih (fun v hv => step v (List.mem_cons_of_mem _ hv)) _ hunit.1 hunit.2

end

theorem session_idle (m : Module) (units : List SourceUnit) : (session m units).work.Idle :=
  (session_induction (I := fun _ => True) trivial (fun _ _ _ => trivial)
    fun _ _ _ _ _ _ _ => trivial).1

end Shading
