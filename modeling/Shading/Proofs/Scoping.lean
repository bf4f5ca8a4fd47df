import Mathlib.Data.List.Nodup
import Shading.Proofs.Indexes

/-! # Scopes as a plain list

    Each scope has an index of its names, and a name is looked up in the
    indexes from the innermost scope on.  Without the indexes, and read from
    the outside in, scopes are a list of lists that grows and shrinks at its
    end (`Nest`).

    Operations may come in any order: scopes may be closed that are not
    open, names may be declared twice or outside of all scopes.  What a
    sequence of them leaves behind is what it makes of the plain list, and
    every answer can be read off that list (`scopes_refine_nest`). -/

namespace Shading

variable {s s' t : Scopes} {name name' : String} {ptr : IR.Value} {scope : List Slot}
    {earlier span span' : Span} {ty : TypeId}

/-! ## Operations -/

/-- What can be done with the scopes. -/
inductive ScopeOp where
  | push
  /-- Close the innermost scope, if there is one. -/
  | pop
  | declare (name : String) (ty : TypeId) (ptr : IR.Value) (span : Span)
  | clear
  deriving DecidableEq, Repr, Inhabited

namespace Scopes

/-- What an operation leaves behind, refused or not. -/
def perform (s : Scopes) : ScopeOp → Scopes
  | .push => s.push
  | .pop => s.pop
  | .declare name ty ptr span => (s.declare name ty ptr span).toOption.getD s
  | .clear => .empty

/-- Operations one after the other. -/
def performAll (s : Scopes) (os : List ScopeOp) : Scopes := os.foldl perform s

end Scopes

/-- The open scopes from the outside in, each with its variables in the order
    of their declaration. -/
abbrev Nest := List (List Slot)

namespace Nest

/-- The variables of the innermost scope, and none if no scope is open. -/
def innermost (n : Nest) : List Slot := n.getLast?.getD []

/-- An operation on the plain list. -/
def perform (n : Nest) : ScopeOp → Nest
  | .push => n ++ [[]]
  | .pop => n.dropLast
  | .declare name ty ptr span =>
    if n = [] ∨ ∃ slot ∈ n.innermost, slot.name = name then n
    else n.dropLast ++ [n.innermost ++ [⟨name, ty, ptr, span, n.length⟩]]
  | .clear => []

/-- Operations one after the other. -/
def performAll (n : Nest) (os : List ScopeOp) : Nest := os.foldl perform n

/-- The first variable of a scope with a name. -/
def First (scope : List Slot) (name : String) (slot : Slot) : Prop :=
  ∃ before after, scope = before ++ slot :: after ∧ slot.name = name ∧
    ∀ other ∈ before, other.name ≠ name

/-- The latest variable of a scope with a name. -/
def Latest (scope : List Slot) (name : String) (slot : Slot) : Prop :=
  ∃ before after, scope = before ++ slot :: after ∧ slot.name = name ∧
    ∀ other ∈ after, other.name ≠ name

/-- The latest variable with a name in the innermost scope that has one. -/
def Means (n : Nest) (name : String) (slot : Slot) : Prop :=
  ∃ outer scope inner, n = outer ++ scope :: inner ∧ Latest scope name slot ∧
    ∀ deeper ∈ inner, ∀ other ∈ deeper, other.name ≠ name

/-- What holds of every nest that operations lead to. -/
structure WellFormed (n : Nest) : Prop where
  /-- A variable knows the place of its scope, counted from one. -/
  level : ∀ i scope, n[i]? = some scope → ∀ slot ∈ scope, slot.depth = i + 1
  /-- No scope declares a name twice. -/
  once : ∀ scope ∈ n, (scope.map (·.name)).Nodup

end Nest

/-! ## Reading scopes from the outside in -/

namespace Scopes

/-- The scopes as a plain list. -/
def nest (s : Scopes) : Nest := (s.nested.map (·.slots)).reverse

theorem nest_eq (s : Scopes) : s.nest = (s.stack.map List.reverse).reverse := by
  simp [nest, stack, Function.comp_def]

@[simp] theorem nest_nil : nest (of []) = [] := rfl

@[simp] theorem nest_cons (top : List Slot) (outer : List (List Slot)) :
    nest (of (top :: outer)) = nest (of outer) ++ [top.reverse] := by
  simp [nest_eq]

@[simp] theorem nest_length (s : Scopes) : s.nest.length = s.depth := by
  simp [nest, depth]

@[simp] theorem nest_innermost (s : Scopes) : s.nest.innermost = s.innermost := by
  obtain ⟨stack, rfl⟩ := s.exists_of
  cases stack with
  | nil => rfl
  | cons top outer => simp [Nest.innermost, innermost_of]

/-- Nothing is lost by reading scopes the other way round. -/
theorem nest_eq_iff {n : Nest} : s.nest = n ↔ s.stack = nest (of n) := by
  simp only [nest_eq, stack_of]
  constructor
  · rintro rfl
    simp
  · intro h
    rw [h]
    simp

theorem mem_nest : scope ∈ s.nest ↔ scope.reverse ∈ s.stack := by
  simp [nest_eq]

/-- A scope finds the latest variable with a name. -/
theorem findIn_eq_some_iff {slot : Slot} :
    findIn scope.reverse name = some slot ↔ Nest.Latest scope name slot := by
  unfold findIn
  rw [List.find?_eq_some_iff_append]
  constructor
  · rintro ⟨hname, after, before, hscope, hafter⟩
    refine ⟨before.reverse, after.reverse, ?_, by simpa using hname, fun other hother => ?_⟩
    · rw [List.reverse_eq_iff] at hscope
      simp [hscope]
    · simpa using hafter other (List.mem_reverse.1 hother)
  · rintro ⟨before, after, rfl, hname, hafter⟩
    refine ⟨by simpa using hname, after.reverse, before.reverse, by simp, fun other hother => ?_⟩
    simpa using hafter other (List.mem_reverse.1 hother)

theorem findIn_eq_none_iff : findIn scope name = none ↔ ∀ slot ∈ scope, slot.name ≠ name := by
  unfold findIn
  simp

/-- A name means the latest variable of the innermost scope that has one. -/
theorem lookup?_eq_some_iff {slot : Slot} :
    s.lookup? name = some slot ↔ s.nest.Means name slot := by
  rw [lookup?_eq, List.findSome?_eq_some_iff]
  constructor
  · rintro ⟨inner, scope, outer, hstack, hfind, hinner⟩
    -- The search goes through the scopes from the inside, and a nest lists them from the outside.
    refine ⟨nest (of outer), scope.reverse, nest (of inner), ?_, ?_, ?_⟩
    · simp [nest_eq, hstack]
    · rw [← findIn_eq_some_iff, List.reverse_reverse]
      exact hfind
    · intro deeper hdeeper other hother
      rw [mem_nest, stack_of] at hdeeper
      exact findIn_eq_none_iff.1 (hinner _ hdeeper) other (List.mem_reverse.2 hother)
  · rintro ⟨outer, scope, inner, hnest, hlatest, hinner⟩
    refine ⟨nest (of inner), scope.reverse, nest (of outer), ?_, findIn_eq_some_iff.2 hlatest, ?_⟩
    · simp [nest_eq_iff.1 hnest, nest_eq]
    · intro deeper hdeeper
      rw [mem_nest, stack_of] at hdeeper
      exact findIn_eq_none_iff.2 fun other hother =>
        hinner _ hdeeper other (List.mem_reverse.2 hother)

theorem lookup?_eq_none_iff :
    s.lookup? name = none ↔ ∀ scope ∈ s.nest, ∀ slot ∈ scope, slot.name ≠ name := by
  rw [lookup?_eq, List.findSome?_eq_none_iff]
  constructor
  · intro h scope hscope slot hslot
    exact findIn_eq_none_iff.1 (h _ (mem_nest.1 hscope)) slot (List.mem_reverse.2 hslot)
  · intro h scope hscope
    have hmem : scope.reverse ∈ s.nest := by rwa [mem_nest, List.reverse_reverse]
    exact findIn_eq_none_iff.2 fun slot hslot => h _ hmem slot (List.mem_reverse.2 hslot)

/-! ## Declarations -/

section

variable {name : String}

/-- A refused declaration changes nothing. -/
theorem perform_refused {e : Fault} (h : s.declare name ty ptr span = .error e) :
    s.perform (.declare name ty ptr span) = s := by
  simp only [perform, h]
  rfl

theorem perform_declared (h : s.declare name ty ptr span = .ok s') :
    s.perform (.declare name ty ptr span) = s' := by
  simp only [perform, h]
  rfl

end

/-- A name is taken if the innermost scope declares it. -/
theorem exists_named_iff (top : List Slot) (outer : List (List Slot)) (name : String) :
    (∃ slot ∈ (nest (of (top :: outer))).innermost, slot.name = name) ↔ findIn top name ≠ none := by
  have hinner : (nest (of (top :: outer))).innermost = top.reverse := nest_innermost _
  rw [hinner, Ne, findIn_eq_none_iff]
  simp

/-- An operation on scopes is that operation on the plain list. -/
theorem nest_perform (s : Scopes) (o : ScopeOp) : (s.perform o).nest = s.nest.perform o := by
  obtain ⟨stack, rfl⟩ := s.exists_of
  cases o with
  | push => exact nest_cons [] stack
  | clear => rfl
  | pop =>
    cases stack with
    | nil => rfl
    | cons top outer => simp [perform, pop_of, Nest.perform]
  | declare name ty ptr span =>
    cases stack with
    | nil => rfl
    | cons top outer =>
      simp only [Nest.perform]
      -- Whether the name is taken is decided in the innermost scope.
      cases hfind : findIn top name with
      | some slot =>
        have htaken := (exists_named_iff top outer name).2 (hfind ▸ Option.some_ne_none slot)
        rw [if_pos (.inr htaken), perform_refused (declare_taken top outer hfind ty ptr span)]
      | none =>
        have hfree : ¬ (nest (of (top :: outer)) = [] ∨
            ∃ slot ∈ (nest (of (top :: outer))).innermost, slot.name = name) := by
          rw [exists_named_iff]
          simp [hfind]
        rw [if_neg hfree, perform_declared (declare_of top outer hfind ty ptr span), nest_innermost]
        simp [innermost_of]

theorem nest_performAll (s : Scopes) (os : List ScopeOp) :
    (s.performAll os).nest = s.nest.performAll os := by
  induction os generalizing s with
  | nil => rfl
  | cons o os ih =>
    have hrest := ih (s.perform o)
    rw [nest_perform] at hrest
    exact hrest

end Scopes

/-! ## Nests that operations lead to -/

namespace Nest

variable {n : Nest} {scope : List Slot} {name : String} {slot : Slot}

/-- In a scope that declares no name twice, the first variable with a name is
    also the latest. -/
theorem first_iff_latest (hscope : (scope.map (·.name)).Nodup) :
    First scope name slot ↔ Latest scope name slot := by
  have hothers : ∀ before after, scope = before ++ slot :: after →
      (∀ other ∈ before, other.name ≠ slot.name) ∧ ∀ other ∈ after, other.name ≠ slot.name := by
    rintro before after rfl
    rw [List.map_append, List.map_cons, List.nodup_append, List.nodup_cons] at hscope
    obtain ⟨-, ⟨hafter, -⟩, hbefore⟩ := hscope
    refine ⟨fun other hother => ?_, fun other hother heq => ?_⟩
    · exact hbefore other.name (List.mem_map_of_mem hother) slot.name List.mem_cons_self
    · exact hafter (heq ▸ List.mem_map_of_mem hother)
  constructor
  · rintro ⟨before, after, hsplit, rfl, -⟩
    exact ⟨before, after, hsplit, rfl, (hothers before after hsplit).2⟩
  · rintro ⟨before, after, hsplit, rfl, -⟩
    exact ⟨before, after, hsplit, rfl, (hothers before after hsplit).1⟩

theorem WellFormed.nil : WellFormed [] where
  level i scope h := by cases h
  once scope h := by cases h

/-- The innermost scope is at the level of its depth, and the others are well
    formed without it. -/
theorem wellFormed_concat : WellFormed (n ++ [scope]) ↔
    WellFormed n ∧ (∀ slot ∈ scope, slot.depth = n.length + 1) ∧ (scope.map (·.name)).Nodup := by
  constructor
  · intro h
    refine ⟨⟨fun i outer hi => h.level i outer ?_, fun outer hmem => h.once outer ?_⟩,
      h.level n.length scope List.getElem?_concat_length, h.once scope (by simp)⟩
    · rw [List.getElem?_append_left (List.getElem?_eq_some_iff.1 hi).1]
      exact hi
    · exact List.mem_append_left _ hmem
  · rintro ⟨hn, hlevel, honce⟩
    refine ⟨fun i outer hi => ?_, fun outer hmem => ?_⟩
    -- An outer scope keeps its level, and the new one is the deepest.
    · rcases Nat.lt_trichotomy i n.length with hlt | rfl | hgt
      · rw [List.getElem?_append_left hlt] at hi
        exact hn.level i outer hi
      · rw [List.getElem?_concat_length] at hi
        cases hi
        exact hlevel
      · rw [List.getElem?_eq_none (by simp; omega)] at hi
        cases hi
    · rcases List.mem_append.1 hmem with hmem | hmem
      · exact hn.once outer hmem
      · rw [List.mem_singleton.1 hmem]
        exact honce

theorem innermost_concat (n : Nest) (scope : List Slot) :
    innermost (n ++ [scope]) = scope := by
  simp [innermost]

/-- What one operation keeps. -/
theorem WellFormed.perform (h : n.WellFormed) (o : ScopeOp) : (n.perform o).WellFormed := by
  cases o with
  | clear => exact .nil
  | push =>
    refine wellFormed_concat.2 ⟨h, fun slot hslot => ?_, List.nodup_nil⟩
    cases hslot
  | pop =>
    rcases List.eq_nil_or_concat' n with rfl | ⟨outer, scope, rfl⟩
    · exact .nil
    · simp only [Nest.perform, List.dropLast_concat]
      exact (wellFormed_concat.1 h).1
  | declare name ty ptr span =>
    rcases List.eq_nil_or_concat' n with rfl | ⟨outer, scope, rfl⟩
    · exact .nil
    · obtain ⟨houter, hlevel, honce⟩ := wellFormed_concat.1 h
      simp only [Nest.perform, innermost_concat, List.dropLast_concat]
      by_cases hc : outer ++ [scope] = [] ∨ ∃ slot ∈ scope, slot.name = name
      · rw [if_pos hc]
        exact h
      · -- The new variable is of the innermost level, and nothing there has its name.
        rw [if_neg hc]
        refine wellFormed_concat.2 ⟨houter, fun slot hslot => ?_, ?_⟩
        · rcases List.mem_append.1 hslot with hslot | hslot
          · exact hlevel slot hslot
          · rw [List.mem_singleton.1 hslot]
            simp
        · rw [List.map_append, List.map_singleton, ← List.concat_eq_append]
          exact List.Nodup.concat (fun hmem => hc (.inr (List.mem_map.1 hmem))) honce

/-- What all operations keep. -/
theorem WellFormed.performAll (h : n.WellFormed) (os : List ScopeOp) :
    (n.performAll os).WellFormed :=
  List.foldlRecOn os _ h fun _ hm o _ => hm.perform o

/-- The variables from a depth on are those that say so themselves. -/
theorem WellFormed.drop_flatten (h : n.WellFormed) (d : Nat) :
    (n.drop (d - 1)).flatten = n.flatten.filter (d ≤ ·.depth) := by
  -- The scopes in front are all less deep, and those behind deep enough.
  have hshallow : (n.take (d - 1)).flatten.filter (d ≤ ·.depth) = [] := by
    rw [List.filter_eq_nil_iff]
    intro slot hslot
    obtain ⟨scope, hscope, hslot⟩ := List.mem_flatten.1 hslot
    obtain ⟨i, hi, rfl⟩ := List.getElem_of_mem hscope
    rw [List.length_take] at hi
    have hdepth := h.level i _ (by rw [List.getElem_take, List.getElem?_eq_getElem]) slot hslot
    rw [decide_eq_true_eq]
    omega
  have hdeep : (n.drop (d - 1)).flatten.filter (d ≤ ·.depth) = (n.drop (d - 1)).flatten := by
    rw [List.filter_eq_self]
    intro slot hslot
    obtain ⟨scope, hscope, hslot⟩ := List.mem_flatten.1 hslot
    obtain ⟨i, hi, rfl⟩ := List.getElem_of_mem hscope
    have hdepth := h.level (d - 1 + i) _ (by rw [List.getElem_drop, List.getElem?_eq_getElem])
      slot hslot
    rw [decide_eq_true_eq]
    omega
  calc (n.drop (d - 1)).flatten
      = (n.take (d - 1)).flatten.filter (d ≤ ·.depth) ++
          (n.drop (d - 1)).flatten.filter (d ≤ ·.depth) := by rw [hshallow, hdeep, List.nil_append]
    _ = n.flatten.filter (d ≤ ·.depth) := by
      rw [← List.filter_append, ← List.flatten_append, List.take_append_drop]

end Nest

/-! ## Brackets -/

/-- Operations that open and close scopes in pairs, and declare variables in
    between. -/
inductive Balanced : List ScopeOp → Prop
  | nil : Balanced []
  | declare (name : String) (ty : TypeId) (ptr : IR.Value) (span : Span) {rest : List ScopeOp}
    (hrest : Balanced rest) : Balanced (.declare name ty ptr span :: rest)
  | nested {body rest : List ScopeOp} (hbody : Balanced body) (hrest : Balanced rest) :
    Balanced (.push :: body ++ .pop :: rest)

namespace Scopes

/-- Only the innermost scope can have changed. -/
def SameOuter (s t : Scopes) : Prop := t.stack ≠ [] ∧ t.stack.tail = s.stack.tail

theorem performAll_append (s : Scopes) (os more : List ScopeOp) :
    s.performAll (os ++ more) = (s.performAll os).performAll more := List.foldl_append

theorem sameOuter_declare (h : s.stack ≠ []) (name : String) (ty : TypeId) (ptr : IR.Value)
    (span : Span) : s.SameOuter (s.perform (.declare name ty ptr span)) := by
  obtain ⟨stack, rfl⟩ := s.exists_of
  cases stack with
  | nil => exact absurd rfl h
  | cons top outer =>
    cases hfind : findIn top name with
    | some slot =>
      rw [perform_refused (declare_taken top outer hfind ty ptr span)]
      exact ⟨h, rfl⟩
    | none =>
      rw [perform_declared (declare_of top outer hfind ty ptr span)]
      exact ⟨List.cons_ne_nil _ _, rfl⟩

/-- A new scope is gone when it is closed, if only it can have changed since. -/
theorem pop_of_sameOuter (h : s.push.SameOuter t) : t.pop = s := by
  rw [← stack_inj, stack_pop, h.2, stack_push]
  rfl

/-- In an open scope, balanced operations leave the scopes around it alone. -/
theorem sameOuter_of_balanced {body : List ScopeOp} (h : Balanced body) :
    ∀ s : Scopes, s.stack ≠ [] → s.SameOuter (s.performAll body) := by
  induction h with
  | nil =>
    intro s hs
    exact ⟨hs, rfl⟩
  | declare name ty ptr span _ ih =>
    intro s hs
    have hstep := sameOuter_declare hs name ty ptr span
    have hrest := ih _ hstep.1
    exact ⟨hrest.1, hrest.2.trans hstep.2⟩
  | @nested body rest _ _ ihbody ihrest =>
    intro s hs
    -- The nested scope is opened and closed again, so the rest starts where it was opened.
    have hbody : (s.push.performAll body).pop = s :=
      pop_of_sameOuter (ihbody s.push (List.cons_ne_nil _ _))
    have hall : s.performAll (.push :: body ++ .pop :: rest) = s.performAll rest := by
      rw [performAll_append]
      show ((s.push.performAll body).pop).performAll rest = _
      rw [hbody]
    rw [hall]
    exact ihrest s hs

/-- Closing a scope restores everything to what it was when the scope was
    opened. -/
theorem performAll_brackets {body : List ScopeOp} (h : Balanced body) (s : Scopes) :
    s.performAll (.push :: body ++ [.pop]) = s := by
  rw [performAll_append]
  exact pop_of_sameOuter (sameOuter_of_balanced h s.push (List.cons_ne_nil _ _))

/-! ## Answers -/

/-- What scopes answer, read off a plain list. -/
structure Answers (s : Scopes) (n : Nest) : Prop where
  /-- A name means the latest variable of the innermost scope that has one. -/
  means : ∀ name slot, s.lookup? name = some slot ↔ n.Means name slot
  unknown : ∀ name, s.lookup? name = none ↔ ∀ scope ∈ n, ∀ slot ∈ scope, slot.name ≠ name
  /-- A name is declared again exactly if the innermost scope has it, and the
      fault says where it was declared first. -/
  redeclared : ∀ name ty ptr span name' earlier span',
    s.declare name ty ptr span = .error ((Cause.variableRedeclaration name' earlier).atSpan span') ↔
      name' = name ∧ span' = span ∧
        ∃ first, Nest.First n.innermost name first ∧ first.span = earlier
  declared : ∀ name ty ptr span, (∃ s', s.declare name ty ptr span = .ok s') ↔
    n ≠ [] ∧ ∀ slot ∈ n.innermost, slot.name ≠ name
  refused : ∀ name ty ptr span e, s.declare name ty ptr span = .error e →
    s.perform (.declare name ty ptr span) = s
  /-- What closing the innermost scope gives back. -/
  closed : s.innermost = n.innermost
  depth : s.depth = n.length
  /-- A variable knows the place of its scope, counted from one. -/
  level : ∀ i scope, n[i]? = some scope → ∀ slot ∈ scope, slot.depth = i + 1
  live : ∀ d, s.liveFrom d = n.flatten.filter (d ≤ ·.depth)

theorem liveFrom_eq (s : Scopes) (d : Nat) : s.liveFrom d = (s.nest.drop (d - 1)).flatten := by
  unfold liveFrom nest
  rw [← List.map_reverse, ← List.map_drop, List.flatMap_def]

/-- Which declarations are refused because of an earlier one. -/
theorem declare_eq_redeclaration_iff (h : s.nest.WellFormed) :
    s.declare name ty ptr span = .error ((Cause.variableRedeclaration name' earlier).atSpan span') ↔
      name' = name ∧ span' = span ∧
        ∃ first, Nest.First s.nest.innermost name first ∧ first.span = earlier := by
  obtain ⟨stack, rfl⟩ := s.exists_of
  cases stack with
  | nil =>
    constructor
    · intro hdeclare
      cases hdeclare
    · rintro ⟨-, -, first, ⟨before, after, hnil, -⟩, -⟩
      cases before <;> cases hnil
  | cons top outer =>
    rw [nest_cons] at h ⊢
    rw [Nest.innermost_concat]
    -- A name stands once in a scope, so the first variable that has it is also the latest.
    have honce := (Nest.wellFormed_concat.1 h).2.2
    constructor
    · intro hdeclare
      cases hfind : findIn top name with
      | none =>
        rw [declare_of top outer hfind] at hdeclare
        cases hdeclare
      | some slot =>
        rw [declare_taken top outer hfind] at hdeclare
        cases hdeclare
        rw [← top.reverse_reverse, findIn_eq_some_iff, ← Nest.first_iff_latest honce] at hfind
        exact ⟨rfl, rfl, slot, hfind, rfl⟩
    · rintro ⟨rfl, rfl, first, hfirst, rfl⟩
      rw [Nest.first_iff_latest honce, ← findIn_eq_some_iff, top.reverse_reverse] at hfirst
      exact declare_taken top outer hfirst ty ptr span'

/-- Which declarations are accepted. -/
theorem declare_eq_ok_iff : (∃ s', s.declare name ty ptr span = .ok s') ↔
      s.nest ≠ [] ∧ ∀ slot ∈ s.nest.innermost, slot.name ≠ name := by
  obtain ⟨stack, rfl⟩ := s.exists_of
  cases stack with
  | nil =>
    constructor
    · rintro ⟨s', hdeclare⟩
      cases hdeclare
    · rintro ⟨hne, -⟩
      exact absurd rfl hne
  | cons top outer =>
    -- Both sides ask the innermost scope alone.
    have hfree : (∀ slot ∈ (nest (of (top :: outer))).innermost, slot.name ≠ name) ↔
        findIn top name = none := by
      rw [← not_iff_not, ← Ne, ← exists_named_iff top outer]
      simp
    rw [hfree]
    cases hfind : findIn top name with
    | some slot => simp [declare_taken top outer hfind]
    | none => simp [declare_of top outer hfind]

/-- Every answer can be read off the plain list, if it is well formed. -/
theorem answers_nest (h : s.nest.WellFormed) : s.Answers s.nest where
  means _ _ := lookup?_eq_some_iff
  unknown _ := lookup?_eq_none_iff
  redeclared _ _ _ _ _ _ _ := declare_eq_redeclaration_iff h
  declared _ _ _ _ := declare_eq_ok_iff
  refused _ _ _ _ _ hdeclare := perform_refused hdeclare
  closed := s.nest_innermost.symm
  depth := s.nest_length.symm
  level := h.level
  live d := by rw [liveFrom_eq, h.drop_flatten]

end Scopes

/-- Whatever operations come in whatever order, refused or not, they leave
    the scopes that they make of a plain list of lists, and everything that
    can be asked of the scopes can be read off that list.  Closing a scope
    restores all that was there before the scope was opened. -/
theorem scopes_refine_nest (os : List ScopeOp) :
    (Scopes.empty.performAll os).nest = Nest.performAll [] os ∧
      (Scopes.empty.performAll os).Answers (Nest.performAll [] os) ∧
      ∀ body, Balanced body →
        Scopes.empty.performAll (os ++ (.push :: body ++ [.pop])) = Scopes.empty.performAll os := by
  have hnest : (Scopes.empty.performAll os).nest = Nest.performAll [] os :=
    Scopes.nest_performAll .empty os
  refine ⟨hnest, ?_, fun body hbody => ?_⟩
  · rw [← hnest]
    apply Scopes.answers_nest
    rw [hnest]
    exact Nest.WellFormed.nil.performAll os
  · rw [Scopes.performAll_append]
    exact Scopes.performAll_brackets hbody _

/-- A scope that declares `x` and holds one that declares it twice, the second
    time in vain. -/
def shadowing : List ScopeOp :=
  [.declare "x" Builtin.float.id (.inst 0) ⟨1, 1, 1⟩, .push,
    .declare "x" Builtin.int.id (.inst 1) ⟨2, 1, 1⟩,
    .declare "x" Builtin.int.id (.inst 2) ⟨3, 1, 1⟩]

/-- Such a scope leaves no trace, and before it is closed, the list shows both
    variables.  What is closed too often before it does no harm. -/
theorem shadowing_refines_nest :
    (Scopes.empty.performAll (.pop :: .push :: shadowing)).Answers
        [[⟨"x", Builtin.float.id, .inst 0, ⟨1, 1, 1⟩, 1⟩],
          [⟨"x", Builtin.int.id, .inst 1, ⟨2, 1, 1⟩, 2⟩]] ∧
      Scopes.empty.performAll ([.pop] ++ (.push :: (shadowing ++ [.pop]) ++ [.pop])) = .empty := by
  have hnest : Nest.performAll [] (.pop :: .push :: shadowing) =
      [[⟨"x", Builtin.float.id, .inst 0, ⟨1, 1, 1⟩, 1⟩],
        [⟨"x", Builtin.int.id, .inst 1, ⟨2, 1, 1⟩, 2⟩]] := by decide +kernel
  have hinner : Balanced (shadowing.drop 2) := .declare _ _ _ _ (.declare _ _ _ _ .nil)
  have hbody : Balanced (shadowing ++ [.pop]) := .declare _ _ _ _ (.nested hinner .nil)
  have hopen := (scopes_refine_nest (.pop :: .push :: shadowing)).2.1
  rw [hnest] at hopen
  exact ⟨hopen, (scopes_refine_nest [.pop]).2.2 _ hbody⟩

end Shading
