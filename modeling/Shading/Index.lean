/-! # Indexes

    An index is a finite map: pairs of a key and a value, the newest first.
    A newer pair hides the older ones with its key.

    Two indexes come with a list of names.  `Index.positions` has for each
    name the place where it stands last, and `Index.groups` all its places in
    ascending order.  Both grow by one entry when a name is appended to the
    list, so whoever keeps such a list can keep its index beside it. -/

namespace Shading

structure Index (κ α : Type) where
  pairs : List (κ × α)
  deriving DecidableEq, Repr, Inhabited

namespace Index

variable {κ α : Type} [DecidableEq κ]

def empty : Index κ α := ⟨[]⟩

/-- Enter a value; an older one with the same key is hidden. -/
def insert (ix : Index κ α) (key : κ) (a : α) : Index κ α := ⟨(key, a) :: ix.pairs⟩

def get? (ix : Index κ α) (key : κ) : Option α := ix.pairs.lookup key

def contains (ix : Index κ α) (key : κ) : Bool := (ix.get? key).isSome

/-- The pairs without those that are hidden. -/
def visible : List (κ × α) → List (κ × α)
  | [] => []
  | p :: rest => p :: (visible rest).filter (·.1 != p.1)

def toList (ix : Index κ α) : List (κ × α) := visible ix.pairs

/-- How many keys have a value. -/
def size (ix : Index κ α) : Nat := ix.toList.length

theorem get?_insert (ix : Index κ α) (key other : κ) (a : α) :
    (ix.insert key a).get? other = if other = key then some a else ix.get? other := by
  unfold get? insert
  by_cases h : other = key
  · rw [if_pos h, h, List.lookup_cons_self]
  · rw [if_neg h, List.lookup_cons, beq_eq_false_iff_ne.2 h]

@[simp] theorem get?_empty (key : κ) : (empty : Index κ α).get? key = none := rfl

@[simp] theorem get?_insert_self (ix : Index κ α) (key : κ) (a : α) :
    (ix.insert key a).get? key = some a := by
  rw [get?_insert, if_pos rfl]

theorem get?_insert_ne (ix : Index κ α) {key other : κ} (h : other ≠ key) (a : α) :
    (ix.insert key a).get? other = ix.get? other := by
  rw [get?_insert, if_neg h]

/-! ## Places of names -/

/-- The place where each name stands last. -/
def positions (names : List String) : Index String Nat := ⟨names.zipIdx.reverse⟩

theorem positions_concat (names : List String) (name : String) :
    positions (names ++ [name]) = (positions names).insert name names.length := by
  simp [positions, insert, List.zipIdx_append]

/-- Enter one more value for a name. -/
def enter (ix : Index String (List Nat)) (name : String) (n : Nat) : Index String (List Nat) :=
  ix.insert name ((ix.get? name).getD [] ++ [n])

/-- All places where each name stands. -/
def groups (names : List String) : Index String (List Nat) :=
  names.zipIdx.foldl (fun ix p => ix.enter p.1 p.2) empty

theorem groups_concat (names : List String) (name : String) :
    groups (names ++ [name]) = (groups names).enter name names.length := by
  simp [groups, List.zipIdx_append]

end Index

end Shading
