import Mathlib.Data.List.Induction
import Mathlib.Data.List.Nodup
import Shading.IR.Module
import Shading.Symbols.Functions
import Shading.Symbols.Scopes
import Shading.Types.Table

/-! # What indexes find

    Modules, scopes and declared functions keep an index beside their list.
    The index always fits the list, because it is part of their type, so
    each lookup can be restated as a search of the list: a symbol finds the
    function with that name, a name finds the variable that was declared
    last, and all functions of a name are found in the order of their
    declaration.  A table of types has indexes only, and is listed by its
    index of identities. -/

namespace Shading

/-! ## Places of names -/

namespace Index

variable {names : List String} {name : String}

theorem get?_positions_eq_none : (positions names).get? name = none ↔ name ∉ names := by
  induction names using List.reverseRecOn with
  | nil => simp [positions, get?]
  | append_singleton names last ih =>
    rw [positions_concat, get?_insert, List.mem_append, List.mem_singleton, not_or, ← ih]
    by_cases h : name = last <;> simp [h]

/-- A place that the index gives for a name holds the name. -/
theorem getElem?_of_get?_positions {k : Nat} (h : (positions names).get? name = some k) :
    names[k]? = some name := by
  induction names using List.reverseRecOn with
  | nil => cases h
  | append_singleton names last ih =>
    rw [positions_concat, get?_insert] at h
    by_cases hlast : name = last
    · rw [if_pos hlast] at h
      cases h
      rw [List.getElem?_concat_length, hlast]
    · rw [if_neg hlast] at h
      have hk := ih h
      rw [List.getElem?_append_left (List.getElem?_eq_some_iff.1 hk).1, hk]

/-- A name that stands in one place is found there. -/
theorem get?_positions_eq_some_iff (hnodup : names.Nodup) {k : Nat} :
    (positions names).get? name = some k ↔ names[k]? = some name := by
  refine ⟨getElem?_of_get?_positions, fun h => ?_⟩
  cases hfound : (positions names).get? name with
  | none => exact absurd (List.mem_of_getElem? h) (get?_positions_eq_none.1 hfound)
  | some j =>
    have hj := getElem?_of_get?_positions hfound
    have hlt := (List.getElem?_eq_some_iff.1 hj).1
    rw [(List.getElem?_inj hlt hnodup).1 (hj.trans h.symm)]

theorem getD_get?_groups :
    ((groups names).get? name).getD [] = (names.zipIdx.filter (·.1 == name)).map (·.2) := by
  induction names using List.reverseRecOn with
  | nil => rfl
  | append_singleton names last ih =>
    rw [groups_concat, enter, get?_insert, List.zipIdx_append, List.filter_append, List.map_append,
      ← ih]
    by_cases h : name = last
    · subst h
      simp
    · simp [h, Ne.symm h]

theorem contains_groups : (groups names).contains name = true ↔ name ∈ names := by
  induction names using List.reverseRecOn with
  | nil => simp [groups, contains]
  | append_singleton names last ih =>
    unfold contains at ih ⊢
    rw [groups_concat, enter, get?_insert, List.mem_append, List.mem_singleton, ← ih]
    by_cases h : name = last <;> simp [h]

/-! ## Listing an index -/

variable {κ α : Type} [DecidableEq κ]

theorem mem_visible {l : List (κ × α)} {k : κ} {a : α} :
    (k, a) ∈ visible l ↔ l.lookup k = some a := by
  induction l with
  | nil => simp [visible]
  | cons p rest ih =>
    obtain ⟨k', a'⟩ := p
    rw [visible, List.mem_cons, List.mem_filter, ih, List.lookup_cons]
    by_cases h : k = k'
    · simp [h, eq_comm]
    · simp [h, beq_eq_false_iff_ne.2 h]

theorem mem_toList {ix : Index κ α} {k : κ} {a : α} : (k, a) ∈ ix.toList ↔ ix.get? k = some a :=
  mem_visible

theorem visible_of_nodup {l : List (κ × α)} (h : (l.map (·.1)).Nodup) : visible l = l := by
  induction l with
  | nil => rfl
  | cons p rest ih =>
    rw [List.map_cons, List.nodup_cons] at h
    rw [visible, ih h.2, List.filter_eq_self.2]
    intro q hq
    exact bne_iff_ne.2 fun heq => h.1 (heq ▸ List.mem_map_of_mem hq)

/-- With one value for each key, a key has the value that stands beside it. -/
theorem get?_eq_some_iff {ix : Index κ α} (h : (ix.pairs.map (·.1)).Nodup) {k : κ} {a : α} :
    ix.get? k = some a ↔ (k, a) ∈ ix.pairs := by
  rw [← mem_toList, toList, visible_of_nodup h]

end Index

/-! ## Modules -/

namespace IR.Module

variable {m : Module} {symbol : String}

theorem find?_eq_none : m.find? symbol = none ↔ symbol ∉ m.functions.map (·.name) := by
  unfold find?
  rw [m.indexed, Index.get?_positions_eq_none]

/-- The function that a symbol finds has it as its name. -/
theorem name_of_find? {id : FuncId} (h : m.find? symbol = some id) :
    ∃ f, m.function? id = some f ∧ f.name = symbol := by
  unfold find? at h
  rw [m.indexed] at h
  have hname := Index.getElem?_of_get?_positions h
  rwa [List.getElem?_map, Option.map_eq_some_iff] at hname

/-- With distinct names, a symbol finds the function of that name. -/
theorem find?_eq_some_iff (hnodup : (m.functions.map (·.name)).Nodup) {id : FuncId} :
    m.find? symbol = some id ↔ ∃ f, m.function? id = some f ∧ f.name = symbol := by
  unfold find?
  rw [m.indexed, Index.get?_positions_eq_some_iff hnodup, List.getElem?_map,
    Option.map_eq_some_iff]
  rfl

end IR.Module

/-! ## Declared functions -/

namespace Functions

/-- A table is its entries. -/
theorem ext {t t' : Functions} (h : t.entries = t'.entries) : t = t' := by
  obtain ⟨entries, ix, rfl⟩ := t
  obtain ⟨entries', ix', rfl⟩ := t'
  cases h
  rfl

theorem filterMap_zipIdx {α : Type} (l : List α) (p : α × Nat → Bool) :
    (l.zipIdx.filter p).filterMap (fun q => l[q.2]?.map (·, q.2)) = l.zipIdx.filter p := by
  conv_rhs => rw [← List.filterMap_some (l := l.zipIdx.filter p)]
  refine List.filterMap_congr fun q hq => ?_
  have hget := List.mem_zipIdx_iff_getElem?.1 (List.mem_filter.1 hq).1
  rw [hget, Option.map_some]

/-- The list of a name holds the positions of the functions with that name, in
    the order of their declaration. -/
theorem byName_eq (t : Functions) (name : String) : (t.byName.get? name).getD [] =
    (t.entries.zipIdx.filter (·.1.prototype.name == name)).map (·.2) := by
  rw [t.indexed, Index.getD_get?_groups, List.zipIdx_map, List.filter_map, List.map_map]
  rfl

theorem overloads_eq (t : Functions) (name : String) :
    t.overloads name = t.entries.zipIdx.filter (·.1.prototype.name == name) := by
  unfold overloads
  rw [byName_eq, List.filterMap_map]
  exact filterMap_zipIdx t.entries fun q => q.1.prototype.name == name

theorem contains_eq_true_iff {t : Functions} {name : String} :
    t.contains name = true ↔ ∃ e ∈ t.entries, e.prototype.name = name := by
  unfold contains
  rw [t.indexed, Index.contains_groups, List.mem_map]

end Functions

/-! ## Scopes -/

namespace Scope

/-- The scope with the given variables, the last one first. -/
def of (slots : List Slot) : Scope := ⟨slots.reverse, _, rfl⟩

theorem ext {a b : Scope} (h : a.slots = b.slots) : a = b := by
  obtain ⟨slots, ix, rfl⟩ := a
  obtain ⟨slots', ix', rfl⟩ := b
  cases h
  rfl

theorem of_reverse (scope : Scope) : of scope.slots.reverse = scope :=
  ext (List.reverse_reverse _)

theorem declare_of (slots : List Slot) (slot : Slot) : (of slots).declare slot = of (slot :: slots) :=
  ext List.reverse_cons.symm

/-- A name finds the variable that was declared last. -/
theorem find?_of (slots : List Slot) (name : String) :
    (of slots).find? name = slots.find? (·.name == name) := by
  unfold find? of
  induction slots with
  | nil => rfl
  | cons slot rest ih =>
    simp only [List.reverse_cons, List.map_append, List.map_singleton, Index.positions_concat,
      Index.get?_insert, List.find?_cons, List.length_map]
    by_cases h : name = slot.name
    · simp [h]
    · rw [if_neg h, beq_eq_false_iff_ne.2 (Ne.symm h), ← ih]
      -- An older place lies in front of the new variable.
      cases hfound : (Index.positions (rest.reverse.map (·.name))).get? name with
      | none => rfl
      | some k =>
        have hk := Index.getElem?_of_get?_positions hfound
        have hlt : k < rest.reverse.length := by
          simpa using (List.getElem?_eq_some_iff.1 hk).1
        exact List.getElem?_append_left hlt

end Scope

namespace Scopes

/-- The open scopes, innermost first, and in each the last variable first. -/
def stack (s : Scopes) : List (List Slot) := s.nested.map (·.slots.reverse)

/-- The scopes with a given stack. -/
def of (stack : List (List Slot)) : Scopes := ⟨stack.map Scope.of⟩

/-- A variable of one scope. -/
def findIn (scope : List Slot) (name : String) : Option Slot := scope.find? (·.name == name)

@[simp] theorem stack_of (stack : List (List Slot)) : (of stack).stack = stack := by
  simp [of, Scopes.stack, Scope.of, Function.comp_def]

@[simp] theorem of_stack (s : Scopes) : of s.stack = s := by
  simp [of, stack, Function.comp_def, Scope.of_reverse]

/-- Scopes are determined by their stack. -/
theorem exists_of (s : Scopes) : ∃ stack, s = of stack := ⟨s.stack, s.of_stack.symm⟩

theorem stack_inj {s t : Scopes} : s.stack = t.stack ↔ s = t :=
  ⟨fun h => by rw [← s.of_stack, h, t.of_stack], congrArg stack⟩

variable (scope : List Slot) (outer stack : List (List Slot))

@[simp] theorem depth_of : (of stack).depth = stack.length := List.length_map _

theorem depth_eq (s : Scopes) : s.depth = s.stack.length := (List.length_map _).symm

theorem push_of : (of stack).push = of ([] :: stack) := rfl

theorem pop_of : (of stack).pop = of stack.tail := by
  unfold pop of
  rw [List.map_tail]

@[simp] theorem stack_push (s : Scopes) : s.push.stack = [] :: s.stack := rfl

@[simp] theorem stack_pop (s : Scopes) : s.pop.stack = s.stack.tail := List.map_tail

theorem innermost_of : (of stack).innermost = (stack.headD []).reverse := by
  cases stack <;> rfl

theorem lookup?_of (name : String) :
    (of stack).lookup? name = stack.findSome? (findIn · name) := by
  unfold lookup? of
  rw [List.findSome?_map]
  congr 1
  funext scope
  exact Scope.find?_of scope name

theorem lookup?_cons (name : String) : (of (scope :: outer)).lookup? name =
    (findIn scope name).or ((of outer).lookup? name) := by
  rw [lookup?_of, lookup?_of, List.findSome?_cons]
  cases findIn scope name <;> rfl

theorem lookup?_eq (s : Scopes) (name : String) :
    s.lookup? name = s.stack.findSome? (findIn · name) := by
  rw [← lookup?_of, of_stack]

theorem checkDeclarable_taken {name : String} {slot : Slot} (h : findIn scope name = some slot)
    (span : Span) : (of (scope :: outer)).checkDeclarable name span =
      .error ((Cause.variableRedeclaration name slot.span).atSpan span) := by
  rw [findIn, ← Scope.find?_of] at h
  simp only [checkDeclarable, of, List.map_cons, h]

theorem checkDeclarable_new {name : String} (h : findIn scope name = none) (span : Span) :
    (of (scope :: outer)).checkDeclarable name span = .ok () := by
  rw [findIn, ← Scope.find?_of] at h
  simp only [checkDeclarable, of, List.map_cons, h]

theorem declare_taken {name : String} {slot : Slot} (h : findIn scope name = some slot)
    (ty : TypeId) (ptr : IR.Value) (span : Span) :
    (of (scope :: outer)).declare name ty ptr span =
      .error ((Cause.variableRedeclaration name slot.span).atSpan span) := by
  unfold declare
  rw [checkDeclarable_taken scope outer h]
  rfl

/-- A variable is declared in front of those of its scope. -/
theorem declare_of {name : String} (h : findIn scope name = none) (ty : TypeId) (ptr : IR.Value)
    (span : Span) : (of (scope :: outer)).declare name ty ptr span =
      .ok (of ((⟨name, ty, ptr, span, outer.length + 1⟩ :: scope) :: outer)) := by
  unfold declare
  rw [checkDeclarable_new scope outer h, depth_of]
  show Except.ok (ε := Fault) (Scopes.mk ((Scope.of scope).declare _ :: _)) = _
  rw [Scope.declare_of]
  rfl

theorem liveFrom_of (depth : Nat) :
    (of stack).liveFrom depth = (stack.reverse.drop (depth - 1)).flatMap List.reverse := by
  unfold liveFrom of
  rw [← List.map_reverse, ← List.map_drop, List.flatMap_map]
  rfl

end Scopes

end Shading
