/-! # Source positions -/

namespace Shading

/-- Where a construct starts in the source and how many bytes it covers.
    Lines and columns count from one; line zero means that no position
    has been attached yet. -/
structure Span where
  line : Nat
  col : Nat
  len : Nat
  deriving DecidableEq, Repr, Inhabited

namespace Span

/-- The position of something that has none yet. -/
def unknown : Span := ⟨0, 0, 0⟩

/-- Has no position been attached? -/
def isUnknown (s : Span) : Bool := s.line == 0

/-- `line:column`. -/
def text (s : Span) : String := s!"{s.line}:{s.col}"

end Span

end Shading
