import Mathlib.Data.List.Nodup
import Shading.Proofs.Correspondence

/-! # The choice among overloads

    A call selects the one function of its name that takes its arguments with
    the fewest conversions (`Functions.resolve_picks_cheapest`).  The count of
    arguments that are passed as they are decides nothing, since it is what
    the conversions leave over; and since functions of one name differ in
    their parameter types, the choice does not depend on the order in which
    they were declared. -/

namespace Shading

open IR

/-! ## Passing arguments -/

namespace Conversion

/-- An argument of one type is passed as a parameter of another. -/
inductive Passes (options : Options) : (arg param : TypeId) → Conversion → Prop
  | same (ty : TypeId) : Passes options ty ty .identity
  | widened (h : options.implicit = true) :
    Passes options Builtin.int.id Builtin.float.id .intToFloat

/-- As many arguments as parameters are passed, one by one. -/
inductive PassesAll (options : Options) : (args params : List TypeId) → List Conversion → Prop
  | nil : PassesAll options [] [] []
  | cons {arg param : TypeId} {c : Conversion} {args params : List TypeId} {cs : List Conversion}
    (h : Passes options arg param c) (hs : PassesAll options args params cs) :
    PassesAll options (arg :: args) (param :: params) (c :: cs)

variable {options : Options} {arg param : TypeId} {args params : List TypeId} {c : Conversion}
  {cs ds : List Conversion}

theorem find?_eq_some_iff : find? arg param options = some c ↔ Passes options arg param c := by
  constructor
  · intro h
    rcases find?_eq_some h with ⟨rfl, rfl⟩ | ⟨rfl, himplicit, rfl, rfl⟩
    · exact .same arg
    · exact .widened himplicit
  · rintro (_ | himplicit)
    · exact if_pos rfl
    · unfold find?
      rw [if_neg (by decide), if_pos ⟨himplicit, rfl, rfl⟩]

theorem Passes.unique {d : Conversion} (h : Passes options arg param c)
    (h' : Passes options arg param d) : c = d :=
  Option.some.inj ((find?_eq_some_iff.2 h).symm.trans (find?_eq_some_iff.2 h'))

theorem PassesAll.unique (h : PassesAll options args params cs)
    (h' : PassesAll options args params ds) : cs = ds := by
  induction h generalizing ds with
  | nil =>
    cases h'
    rfl
  | cons hc _ ih =>
    cases h' with
    | cons hd hds => rw [hc.unique hd, ih hds]

theorem PassesAll.length (h : PassesAll options args params cs) :
    params.length = args.length ∧ cs.length = args.length := by
  induction h with
  | nil => exact ⟨rfl, rfl⟩
  | cons _ _ ih => exact ⟨congrArg (· + 1) ih.1, congrArg (· + 1) ih.2⟩

theorem PassesAll.refl (options : Options) (args : List TypeId) :
    PassesAll options args args (List.replicate args.length .identity) := by
  induction args with
  | nil => exact .nil
  | cons ty _ ih => exact .cons (.same ty) ih

/-- Without a conversion the arguments have the types of the parameters. -/
theorem PassesAll.eq_of_count (h : PassesAll options args params cs)
    (hcount : cs.count .intToFloat = 0) : params = args := by
  induction h with
  | nil => rfl
  | cons hc _ ih =>
    cases hc with
    | same ty => rw [ih (by simpa using hcount)]
    | widened => simp at hcount

theorem mapM_find?_eq_some_iff (hlen : params.length = args.length) :
    ((params.zip args).mapM fun p => find? p.2 p.1 options) = some cs ↔
      PassesAll options args params cs := by
  -- By induction on the parameters, with as many arguments beside them.
  induction params generalizing args cs with
  | nil =>
    obtain rfl := List.length_eq_zero_iff.1 hlen.symm
    refine ⟨fun h => ?_, fun h => ?_⟩
    · cases h
      exact .nil
    · cases h
      rfl
  | cons param params ih =>
    cases args with
    | nil => cases hlen
    | cons arg args =>
      have ih := @ih args
      rw [List.zip_cons_cons, List.mapM_cons]
      refine ⟨fun h => ?_, fun h => ?_⟩
      · obtain ⟨c, hc, h⟩ := Option.bind_eq_some_iff.1 h
        obtain ⟨cs', hcs', hpure⟩ := Option.bind_eq_some_iff.1 h
        cases hpure
        exact .cons (find?_eq_some_iff.1 hc) ((ih (Nat.succ.inj hlen)).1 hcs')
      · cases h with
        | cons hc hcs =>
          rw [find?_eq_some_iff.2 hc, (ih (Nat.succ.inj hlen)).2 hcs]
          rfl

/-- The cost of a call is the number of its conversions. -/
theorem totalCost_eq (cs : List Conversion) : totalCost cs = cs.count .intToFloat := by
  induction cs with
  | nil => rfl
  | cons c cs ih =>
    cases c with
    | identity => simp [totalCost, cost, ih]
    | intToFloat => simp [totalCost, cost, ih, Nat.add_comm]

/-- Every argument is passed as it is or converted. -/
theorem countP_isExact_add_count (cs : List Conversion) :
    cs.countP (·.isExact) + cs.count .intToFloat = cs.length := by
  induction cs with
  | nil => rfl
  | cons c cs ih =>
    cases c with
    | identity =>
      rw [List.countP_cons_of_pos rfl, List.count_cons_of_ne (by decide), List.length_cons]
      omega
    | intToFloat =>
      rw [List.countP_cons_of_neg (by decide), List.count_cons_self, List.length_cons]
      omega

end Conversion

/-! ## Candidates -/

/-- A function can be called under a name with arguments of some types, which
    are converted like this. -/
structure Prototype.Takes (options : Options) (name : String) (args : List TypeId) (p : Prototype)
    (cs : List Conversion) : Prop where
  name : p.name = name
  passes : Conversion.PassesAll options args p.paramTypes cs

namespace Functions

/-- A function that takes the arguments, with no more conversions than any
    other one that takes them. -/
structure Cheapest (t : Functions) (options : Options) (name : String) (args : List TypeId)
    (id : EntryId) (cs : List Conversion) : Prop where
  takes : ∃ e, t.get? id = some e ∧ e.prototype.Takes options name args cs
  least : ∀ e ∈ t.entries, ∀ ds, e.prototype.Takes options name args ds →
    cs.count .intToFloat ≤ ds.count .intToFloat

variable {t t' : Functions} {options : Options} {name : String} {args : List TypeId} {c : Candidate}
  {id id' : EntryId} {cs ds : List Conversion}

theorem mem_overloads {e : Entry} :
    (e, id) ∈ t.overloads name ↔ t.get? id = some e ∧ e.prototype.name = name := by
  unfold get?
  rw [overloads_eq, List.mem_filter, List.mem_zipIdx_iff_getElem?]
  simp

theorem candidate?_eq_some {e : Entry} (hname : e.prototype.name = name) :
    candidate? options args e id = some c ↔ c.entry = id ∧
      e.prototype.Takes options name args c.conversions ∧
      c.cost = c.conversions.count .intToFloat := by
  unfold candidate?
  constructor
  · intro h
    split at h
    · rename_i hlen
      obtain ⟨cs, hcs, hpure⟩ := Option.bind_eq_some_iff.1 h
      cases hpure
      have hlen : e.prototype.paramTypes.length = args.length := by
        rw [Prototype.paramTypes, List.length_map, hlen]
      exact ⟨rfl, ⟨hname, (Conversion.mapM_find?_eq_some_iff hlen).1 hcs⟩, Conversion.totalCost_eq cs⟩
    · cases h
  · rintro ⟨rfl, htakes, hcost⟩
    have hlen := htakes.passes.length.1
    rw [if_pos (by rwa [Prototype.paramTypes, List.length_map] at hlen),
      (Conversion.mapM_find?_eq_some_iff hlen).2 htakes.passes]
    show some (Candidate.mk c.entry c.conversions (Conversion.totalCost c.conversions)) = some c
    rw [Conversion.totalCost_eq, ← hcost]

/-- The candidates of a call are the functions that take its arguments. -/
theorem mem_viable : c ∈ t.viable options name args ↔
    (∃ e, t.get? c.entry = some e ∧ e.prototype.Takes options name args c.conversions) ∧
      c.cost = c.conversions.count .intToFloat := by
  unfold viable
  rw [List.mem_filterMap]
  constructor
  · rintro ⟨⟨e, id⟩, hmem, hc⟩
    obtain ⟨hget, hname⟩ := mem_overloads.1 hmem
    obtain ⟨rfl, htakes, hcost⟩ := (candidate?_eq_some hname).1 hc
    exact ⟨⟨e, hget, htakes⟩, hcost⟩
  · rintro ⟨⟨e, hget, htakes⟩, hcost⟩
    exact ⟨(e, c.entry), mem_overloads.2 ⟨hget, htakes.name⟩,
      (candidate?_eq_some htakes.name).2 ⟨rfl, htakes, hcost⟩⟩

/-- Candidates stand in order of declaration, each one once. -/
theorem viable_sorted (t : Functions) (options : Options) (name : String) (args : List TypeId) :
    (t.viable options name args).Pairwise fun c c' => c.entry < c'.entry := by
  unfold viable
  rw [overloads_eq, List.pairwise_filterMap]
  have hsorted : t.entries.zipIdx.Pairwise fun q q' => q.2 < q'.2 := by
    rw [← List.pairwise_map (R := (· < ·)), List.zipIdx_map_snd]
    exact List.pairwise_lt_range'
  have hentry : ∀ (e : Entry) (id : EntryId) (c : Candidate),
      candidate? options args e id = some c → c.entry = id := fun e id c h =>
    ((candidate?_eq_some rfl).1 h).1
  refine (hsorted.filter _).imp fun {q q'} hlt c hc c' hc' => ?_
  rw [hentry _ _ _ hc, hentry _ _ _ hc']
  exact hlt

/-- All cheapest candidates have the same count of exact arguments, so that
    this count does not decide between them. -/
theorem cheapest_eq {n : Nat} {l : List Candidate} (hl : ∀ c ∈ l, c.exactCount + c.cost = n) :
    cheapest l = l.filter fun c => l.all fun d => c.cost ≤ d.cost := by
  unfold cheapest
  cases hmin : (l.map (·.cost)).min? with
  | none =>
    rw [List.map_eq_nil_iff.1 (List.min?_eq_none_iff.1 hmin)]
    rfl
  | some least =>
    obtain ⟨hmem, hleast⟩ := List.min?_eq_some_iff.1 hmin
    obtain ⟨m, hm, rfl⟩ := List.mem_map.1 hmem
    have hleast : ∀ d ∈ l, m.cost ≤ d.cost := fun d hd => hleast _ (List.mem_map_of_mem hd)
    have htied : l.filter (·.cost == m.cost) = l.filter fun c => l.all fun d => c.cost ≤ d.cost := by
      refine List.filter_congr fun c hc => Bool.eq_iff_iff.2 ?_
      rw [beq_iff_eq, List.all_eq_true]
      refine ⟨fun heq d hd => by simpa [heq] using hleast d hd, fun h => ?_⟩
      exact Nat.le_antisymm (by simpa using h m hm) (hleast c hc)
    show (l.filter (·.cost == m.cost)).filter _ = _
    rw [← htied]
    -- What is left over by one and the same cost is one and the same count.
    have hexact : ∀ c ∈ l.filter (·.cost == m.cost), c.exactCount = n - m.cost := by
      intro c hc
      obtain ⟨hc, hcost⟩ := List.mem_filter.1 hc
      have hsum := hl c hc
      rw [beq_iff_eq.1 hcost] at hsum
      exact Nat.eq_sub_of_add_eq hsum
    refine List.filter_eq_self.2 fun c hc => beq_iff_eq.2 ?_
    cases hmax : ((l.filter (·.cost == m.cost)).map (·.exactCount)).max? with
    | none =>
      have hnil := List.map_eq_nil_iff.1 (List.max?_eq_none_iff.1 hmax)
      rw [hnil] at hc
      cases hc
    | some most =>
      obtain ⟨d, hd, rfl⟩ := List.mem_map.1 (List.max?_mem hmax)
      rw [hexact c hc, Option.getD_some, hexact d hd]

theorem viable_exactCount (h : c ∈ t.viable options name args) :
    c.exactCount + c.cost = args.length := by
  obtain ⟨⟨e, -, htakes⟩, hcost⟩ := mem_viable.1 h
  rw [hcost, ← htakes.passes.length.2]
  exact Conversion.countP_isExact_add_count c.conversions

/-- What ranking leaves over are the cheapest functions. -/
theorem mem_cheapest : c ∈ cheapest (t.viable options name args) ↔
    t.Cheapest options name args c.entry c.conversions ∧
      c.cost = c.conversions.count .intToFloat := by
  rw [cheapest_eq fun c hc => viable_exactCount hc, List.mem_filter, mem_viable, List.all_eq_true]
  constructor
  · rintro ⟨⟨htakes, hcost⟩, hall⟩
    refine ⟨⟨htakes, fun e he ds hds => ?_⟩, hcost⟩
    obtain ⟨id, hid⟩ := List.mem_iff_getElem?.1 he
    -- Any other function that takes the arguments is a candidate too.
    have hle := hall ⟨id, ds, ds.count .intToFloat⟩ (mem_viable.2 ⟨⟨e, hid, hds⟩, rfl⟩)
    rw [decide_eq_true_iff] at hle
    rwa [hcost] at hle
  · rintro ⟨h, hcost⟩
    refine ⟨⟨h.takes, hcost⟩, fun d hd => ?_⟩
    obtain ⟨⟨e, he, htakes⟩, hcost'⟩ := mem_viable.1 hd
    rw [decide_eq_true_iff, hcost, hcost']
    exact h.least e (List.mem_of_getElem? he) _ htakes

theorem cheapest_sorted (t : Functions) (options : Options) (name : String) (args : List TypeId) :
    (cheapest (t.viable options name args)).Pairwise fun c c' => c.entry < c'.entry := by
  rw [cheapest_eq fun c hc => viable_exactCount hc]
  exact (t.viable_sorted options name args).filter _

theorem Cheapest.candidate (h : t.Cheapest options name args id cs) :
    ⟨id, cs, cs.count .intToFloat⟩ ∈ cheapest (t.viable options name args) :=
  mem_cheapest.2 ⟨h, rfl⟩

theorem Cheapest.unique (h : t.Cheapest options name args id cs)
    (h' : t.Cheapest options name args id ds) : cs = ds := by
  obtain ⟨e, he, htakes⟩ := h.takes
  obtain ⟨e', he', htakes'⟩ := h'.takes
  cases he.symm.trans he'
  exact htakes.passes.unique htakes'.passes

/-! ## Resolution -/

/-- Where a function takes the arguments, there is a cheapest one. -/
theorem cheapest_eq_nil : cheapest (t.viable options name args) = [] ↔
    t.viable options name args = [] := by
  refine ⟨fun h => ?_, fun h => by rw [h]; rfl⟩
  cases hmin : ((t.viable options name args).map (·.cost)).min? with
  | none => exact List.map_eq_nil_iff.1 (List.min?_eq_none_iff.1 hmin)
  | some least =>
    obtain ⟨hmem, hleast⟩ := List.min?_eq_some_iff.1 hmin
    obtain ⟨m, hm, rfl⟩ := List.mem_map.1 hmem
    rw [cheapest_eq fun c hc => viable_exactCount hc, List.filter_eq_nil_iff] at h
    refine absurd (List.all_eq_true.2 fun d hd => ?_) (h m hm)
    simpa using hleast _ (List.mem_map_of_mem hd)

theorem viable_eq_nil : t.viable options name args = [] ↔
    ∀ e ∈ t.entries, ∀ cs, ¬e.prototype.Takes options name args cs := by
  rw [List.eq_nil_iff_forall_not_mem]
  constructor
  · intro h e he cs htakes
    obtain ⟨id, hid⟩ := List.mem_iff_getElem?.1 he
    exact h ⟨id, cs, cs.count .intToFloat⟩ (mem_viable.2 ⟨⟨e, hid, htakes⟩, rfl⟩)
  · intro h c hc
    obtain ⟨⟨e, he, htakes⟩, -⟩ := mem_viable.1 hc
    exact h e (List.mem_of_getElem? he) _ htakes

/-- The prototypes of the cheapest functions, in order of declaration. -/
def tied (t : Functions) (options : Options) (name : String) (args : List TypeId) :
    List Prototype :=
  ((cheapest (t.viable options name args)).filterMap fun c => t.get? c.entry).map (·.prototype)

variable {types : TypeTable} {span : Span}

theorem resolve_unknown (h : ∀ e ∈ t.entries, e.prototype.name ≠ name) :
    t.resolve types options name args span = .error ((Cause.unknownFunction name).atSpan span) := by
  unfold resolve
  rw [if_pos]
  rw [Bool.not_eq_true', ← Bool.not_eq_true, contains_eq_true_iff]
  rintro ⟨e, he, heq⟩
  exact h e he heq

/-- A name that some function has is not unknown. -/
theorem resolve_known (hname : ∃ e ∈ t.entries, e.prototype.name = name) :
    t.resolve types options name args span =
      if t.viable options name args = [] then .error ((Cause.noMatchingOverload name
        (", ".intercalate (args.map types.nameOrMark))).atSpan span)
      else t.best types (t.viable options name args) span := by
  unfold resolve
  rw [contains_eq_true_iff.2 hname, Bool.not_true, if_neg Bool.false_ne_true]
  split
  · rename_i hnil
    rw [if_pos hnil]
  · rename_i hne
    exact (if_neg hne).symm

theorem resolve_unmatched (hname : ∃ e ∈ t.entries, e.prototype.name = name)
    (h : ∀ e ∈ t.entries, ∀ cs, ¬e.prototype.Takes options name args cs) :
    t.resolve types options name args span = .error ((Cause.noMatchingOverload name
      (", ".intercalate (args.map types.nameOrMark))).atSpan span) := by
  rw [resolve_known hname, if_pos (viable_eq_nil.2 h)]

/-- A call that some function takes is decided by ranking. -/
theorem resolve_ranked {l : List Candidate} (h : cheapest (t.viable options name args) = c :: l) :
    t.resolve types options name args span = t.best types (t.viable options name args) span ∧
      (t.viable options name args).isEmpty = false := by
  have hne : t.viable options name args ≠ [] := by
    rw [ne_eq, ← cheapest_eq_nil, h]
    exact List.cons_ne_nil c l
  obtain ⟨e, he, htakes⟩ := (mem_cheapest.1 (by rw [h]; exact List.mem_cons_self :
    c ∈ cheapest (t.viable options name args))).1.takes
  refine ⟨?_, List.isEmpty_eq_false_iff.2 hne⟩
  rw [resolve_known ⟨e, List.mem_of_getElem? he, htakes.name⟩, if_neg hne]

theorem resolve_chosen (h : cheapest (t.viable options name args) = [c]) :
    t.resolve types options name args span = .ok c := by
  obtain ⟨hranked, hne⟩ := resolve_ranked h
  rw [hranked, best, hne, if_neg Bool.false_ne_true, h]

/-- A call with several cheapest functions is refused, and all of them are
    listed. -/
theorem resolve_tied {d : Candidate} {l : List Candidate}
    (h : cheapest (t.viable options name args) = c :: d :: l) :
    t.resolve types options name args span = .error ((Cause.ambiguousOverload name
      (", ".intercalate ((t.tied options name args).map (·.describe types)))).atSpan span) := by
  obtain ⟨hranked, hne⟩ := resolve_ranked h
  obtain ⟨e, he, htakes⟩ := (mem_cheapest.1 (by rw [h]; exact List.mem_cons_self :
    c ∈ cheapest (t.viable options name args))).1.takes
  rw [hranked, best, hne, if_neg Bool.false_ne_true, h]
  show Except.error (t.ambiguous types (c :: d :: l) span) = _
  unfold ambiguous tied
  rw [h, List.head?_cons, Option.bind_some, he, Option.map_some, Option.getD_some, htakes.name,
    List.map_map]
  rfl

/-- There is one cheapest function. -/
theorem cheapest_eq_singleton : cheapest (t.viable options name args) = [c] ↔
    t.Cheapest options name args c.entry c.conversions ∧
      c.cost = c.conversions.count .intToFloat ∧
      ∀ id cs, t.Cheapest options name args id cs → id = c.entry := by
  constructor
  · intro h
    obtain ⟨hc, hcost⟩ := mem_cheapest.1 (by rw [h]; exact List.mem_cons_self :
      c ∈ cheapest (t.viable options name args))
    refine ⟨hc, hcost, fun id cs hid => ?_⟩
    have hmem := hid.candidate
    rw [h] at hmem
    exact congrArg Candidate.entry (List.mem_singleton.1 hmem)
  · rintro ⟨hc, hcost, honly⟩
    have hmem := mem_cheapest.2 ⟨hc, hcost⟩
    have hall : ∀ d ∈ cheapest (t.viable options name args), d = c := by
      intro d hd
      obtain ⟨hd, hcost'⟩ := mem_cheapest.1 hd
      have hentry := honly _ _ hd
      rw [hentry] at hd
      have hconv := hd.unique hc
      cases c
      cases d
      simp_all
    have hsorted := t.cheapest_sorted options name args
    cases hl : cheapest (t.viable options name args) with
    | nil =>
      rw [hl] at hmem
      cases hmem
    | cons a l =>
      rw [hl] at hall hsorted
      cases l with
      | nil => rw [hall a List.mem_cons_self]
      | cons b l =>
        -- The two would be the same candidate, but stand at different positions.
        have hlt := (List.pairwise_cons.1 hsorted).1 b List.mem_cons_self
        rw [hall a List.mem_cons_self, hall b (List.mem_cons_of_mem _ List.mem_cons_self)] at hlt
        exact absurd hlt (Nat.lt_irrefl _)

/-- There are several cheapest functions. -/
theorem exists_cheapest_eq_cons_cons :
    (∃ c d l, cheapest (t.viable options name args) = c :: d :: l) ↔
      ∃ id cs id' cs', id ≠ id' ∧ t.Cheapest options name args id cs ∧
        t.Cheapest options name args id' cs' := by
  constructor
  · rintro ⟨c, d, l, h⟩
    have hlt := t.cheapest_sorted options name args
    rw [h] at hlt
    have hne : c.entry ≠ d.entry :=
      Nat.ne_of_lt ((List.pairwise_cons.1 hlt).1 d List.mem_cons_self)
    refine ⟨c.entry, c.conversions, d.entry, d.conversions, hne, ?_, ?_⟩
    · exact (mem_cheapest.1 (by rw [h]; exact List.mem_cons_self)).1
    · exact (mem_cheapest.1 (by rw [h]; exact List.mem_cons_of_mem _ List.mem_cons_self)).1
  · rintro ⟨id, cs, id', cs', hne, h, h'⟩
    have hmem := h.candidate
    have hmem' := h'.candidate
    -- Two different functions do not fit into a list with fewer than two.
    cases hl : cheapest (t.viable options name args) with
    | nil =>
      rw [hl] at hmem
      cases hmem
    | cons c l =>
      cases l with
      | nil =>
        rw [hl] at hmem hmem'
        have heq := (List.mem_singleton.1 hmem).trans (List.mem_singleton.1 hmem').symm
        exact absurd (congrArg Candidate.entry heq) hne
      | cons d l => exact ⟨c, d, l, rfl⟩

/-! ## Tables -/

/-- The tables that declarations build, in whatever modules the functions
    are declared and whichever of them are given bodies. -/
inductive Built : Functions → Prop
  | empty : Built .empty
  | declare {w : Work} (types : TypeTable) (p : Prototype) (h : Built w.symbols.functions) :
    Built ((Lower.declare types p).run w).2.symbols.functions
  | mark {t : Functions} (id : EntryId) (defined : Bool) (h : Built t) :
    Built (t.setDefined id defined)

/-- Functions of one name differ in their parameter types. -/
def Apart (t : Functions) : Prop :=
  ∀ i j e e', t.get? i = some e → t.get? j = some e' →
    e.prototype.name = e'.prototype.name → e.prototype.paramTypes = e'.prototype.paramTypes → i = j

theorem Apart.insert (h : t.Apart) {p : Prototype} (hfind : t.find p = .ok none) (func : FuncId) :
    (t.insert p func).Apart := by
  -- An entry of the longer table is an old one, or it is the last one.
  have hcases : ∀ {k e}, (t.insert p func).get? k = some e →
      t.get? k = some e ∨ k = t.entries.length ∧ e.prototype = p := by
    intro k e hk
    unfold get? Functions.insert at hk
    rcases Nat.lt_trichotomy k t.entries.length with hlt | rfl | hgt
    · rw [List.getElem?_append_left hlt] at hk
      exact .inl hk
    · rw [List.getElem?_concat_length] at hk
      cases hk
      exact .inr ⟨rfl, rfl⟩
    · rw [List.getElem?_eq_none (by simpa [Nat.succ_le_iff] using hgt)] at hk
      cases hk
  intro i j e e' hi hj hname hparams
  rcases hcases hi with hold | ⟨hlast, hp⟩
  · rcases hcases hj with hold' | ⟨-, hp'⟩
    · exact h i j e e' hold hold' hname hparams
    · rw [hp'] at hname hparams
      exact absurd hparams (find_eq_none hfind hold hname)
  · rcases hcases hj with hold' | ⟨hlast', -⟩
    · rw [hp] at hname hparams
      exact absurd hparams.symm (find_eq_none hfind hold' hname.symm)
    · rw [hlast, hlast']

theorem Apart.setDefined (h : t.Apart) (id : EntryId) (defined : Bool) :
    (t.setDefined id defined).Apart := by
  intro i j e e' hi hj hname hparams
  obtain ⟨a, ha, hae, -⟩ := setDefined_old hi
  obtain ⟨a', ha', hae', -⟩ := setDefined_old hj
  exact h i j a a' ha ha' (by rw [hae, hae', hname]) (by rw [hae, hae', hparams])

theorem Built.apart (h : t.Built) : t.Apart := by
  induction h with
  | empty =>
    intro i j e e' hi
    cases hi
  | @declare w types p _ ih =>
    refine Act.Meets.state (R := fun w' => w'.symbols.functions.Apart)
      ((Lower.declare_meets types p w).mono (fun id w' hdecl => ?_) fun e w' he => ?_)
    · cases hdecl with
      | found => exact ih
      | added hfind => exact ih.insert hfind _
    · rw [he.1]
      exact ih
  | mark id defined _ ih => exact ih.setDefined id defined

/-- A function with exactly the types of the arguments is the only cheapest
    one. -/
theorem Apart.cheapest_exact (h : t.Apart) {e : Entry} (he : t.get? id = some e)
    (hname : e.prototype.name = name) (hparams : e.prototype.paramTypes = args) :
    cheapest (t.viable options name args) =
      [⟨id, List.replicate args.length .identity, 0⟩] := by
  have htakes : e.prototype.Takes options name args (List.replicate args.length .identity) :=
    ⟨hname, hparams ▸ .refl options _⟩
  -- A call without conversions costs nothing, and only an exact match costs nothing.
  have hzero : (List.replicate args.length Conversion.identity).count .intToFloat = 0 := by
    simp [List.count_replicate]
  refine cheapest_eq_singleton.2 ⟨⟨⟨e, he, htakes⟩, fun _ _ _ _ => ?_⟩, hzero.symm, ?_⟩
  · rw [hzero]
    exact Nat.zero_le _
  · intro id' cs hid
    obtain ⟨e', he', htakes'⟩ := hid.takes
    have hle := hid.least e (List.mem_of_getElem? he) _ htakes
    rw [hzero] at hle
    have hparams' := htakes'.passes.eq_of_count (Nat.le_zero.1 hle)
    exact h id' id e' e he' he (htakes'.name.trans hname.symm) (hparams'.trans hparams.symm)

/-! ## Orders of declaration -/

theorem mem_tied {p : Prototype} : p ∈ t.tied options name args ↔
    p ∈ t.entries.map (·.prototype) ∧ ∃ cs, p.Takes options name args cs ∧
      ∀ q ∈ t.entries.map (·.prototype), ∀ ds, q.Takes options name args ds →
        cs.count .intToFloat ≤ ds.count .intToFloat := by
  unfold tied
  simp only [List.mem_map, List.mem_filterMap]
  constructor
  · rintro ⟨e, ⟨c, hc, he⟩, rfl⟩
    obtain ⟨h, -⟩ := mem_cheapest.1 hc
    obtain ⟨e', he', htakes⟩ := h.takes
    cases he.symm.trans he'
    -- Prototypes say all that the costs depend on.
    refine ⟨⟨e, List.mem_of_getElem? he, rfl⟩, c.conversions, htakes, ?_⟩
    rintro q ⟨a, ha, rfl⟩ ds hds
    exact h.least a ha ds hds
  · rintro ⟨⟨e, he, rfl⟩, cs, htakes, hleast⟩
    obtain ⟨id, hid⟩ := List.mem_iff_getElem?.1 he
    have h : t.Cheapest options name args id cs :=
      ⟨⟨e, hid, htakes⟩, fun a ha ds hds => hleast _ ⟨a, ha, rfl⟩ ds hds⟩
    exact ⟨e, ⟨_, h.candidate, hid⟩, rfl⟩

theorem tied_length (t : Functions) (options : Options) (name : String) (args : List TypeId) :
    (t.tied options name args).length = (cheapest (t.viable options name args)).length := by
  unfold tied
  rw [List.length_map, List.length_filterMap_eq_countP, List.countP_eq_length]
  intro c hc
  obtain ⟨e, he, -⟩ := (mem_cheapest.1 hc).1.takes
  rw [he]
  rfl

theorem Apart.tied_nodup (h : t.Apart) : (t.tied options name args).Nodup := by
  unfold tied
  rw [List.Nodup, List.pairwise_map, List.pairwise_filterMap]
  refine (t.cheapest_sorted options name args).imp fun {c c'} hlt e he e' he' heq => ?_
  exact Nat.ne_of_lt hlt (h _ _ e e' he he' (by rw [heq]) (by rw [heq]))

/-- The cheapest functions do not depend on the order of declaration. -/
theorem Apart.tied_perm (h : t.Apart) (h' : t'.Apart)
    (hperm : (t.entries.map (·.prototype)).Perm (t'.entries.map (·.prototype))) :
    (t.tied options name args).Perm (t'.tied options name args) := by
  refine (List.perm_ext_iff_of_nodup h.tied_nodup h'.tied_nodup).2 fun p => ?_
  simp only [mem_tied, hperm.mem_iff]

/-- Two answers to a call over two tables: they name the same function with
    the same conversions, or report the same, apart from the order in which
    the cheapest functions are listed. -/
inductive SameAnswer (types : TypeTable) (t t' : Functions) :
    Except Fault Candidate → Except Fault Candidate → Prop
  | chosen {c c' : Candidate} {e e' : Entry} (he : t.get? c.entry = some e)
    (he' : t'.get? c'.entry = some e') (hsame : e'.prototype = e.prototype)
    (hconversions : c'.conversions = c.conversions) (hcost : c'.cost = c.cost) :
    SameAnswer types t t' (.ok c) (.ok c')
  | refused (e : Fault) : SameAnswer types t t' (.error e) (.error e)
  | ambiguous (name : String) (span : Span) {ps ps' : List Prototype} (h : ps.Perm ps') :
    SameAnswer types t t'
      (.error ((Cause.ambiguousOverload name
        (", ".intercalate (ps.map (·.describe types)))).atSpan span))
      (.error ((Cause.ambiguousOverload name
        (", ".intercalate (ps'.map (·.describe types)))).atSpan span))

/-- One cheapest function in each of two tables. -/
theorem SameAnswer.of_singleton {c c' : Candidate}
    (h : cheapest (t.viable options name args) = [c])
    (h' : cheapest (t'.viable options name args) = [c'])
    (hperm : (t.tied options name args).Perm (t'.tied options name args)) :
    SameAnswer types t t' (.ok c) (.ok c') := by
  obtain ⟨hc, hcost, -⟩ := cheapest_eq_singleton.1 h
  obtain ⟨hc', hcost', -⟩ := cheapest_eq_singleton.1 h'
  obtain ⟨e, he, htakes⟩ := hc.takes
  obtain ⟨e', he', htakes'⟩ := hc'.takes
  have htied : t.tied options name args = [e.prototype] := by simp [tied, h, he]
  have htied' : t'.tied options name args = [e'.prototype] := by simp [tied, h', he']
  rw [htied, htied', List.singleton_perm_singleton] at hperm
  rw [← hperm] at htakes'
  have hconversions := htakes'.passes.unique htakes.passes
  exact .chosen he he' hperm.symm hconversions (by rw [hcost, hcost', hconversions])

theorem Apart.sameAnswer (h : t.Apart) (h' : t'.Apart)
    (hperm : (t.entries.map (·.prototype)).Perm (t'.entries.map (·.prototype)))
    (types : TypeTable) (options : Options) (name : String) (args : List TypeId) (span : Span) :
    SameAnswer types t t' (t.resolve types options name args span)
      (t'.resolve types options name args span) := by
  have htied : (t.tied options name args).Perm (t'.tied options name args) := h.tied_perm h' hperm
  have hlength := htied.length_eq
  rw [tied_length, tied_length] at hlength
  -- Whether a name is known does not depend on the order either.
  have hnames : (∃ e ∈ t.entries, e.prototype.name = name) ↔
      ∃ e ∈ t'.entries, e.prototype.name = name := by
    have hany : ∀ u : Functions, (∃ e ∈ u.entries, e.prototype.name = name) ↔
        ∃ p ∈ u.entries.map (·.prototype), p.name = name := by simp
    rw [hany, hany]
    simp only [hperm.mem_iff]
  by_cases hname : ∃ e ∈ t.entries, e.prototype.name = name
  · -- As many functions are cheapest in one table as in the other.
    cases hl : cheapest (t.viable options name args) with
    | nil =>
      rw [hl] at hlength
      have hl' := List.length_eq_zero_iff.1 hlength.symm
      rw [resolve_unmatched hname (viable_eq_nil.1 (cheapest_eq_nil.1 hl)),
        resolve_unmatched (hnames.1 hname) (viable_eq_nil.1 (cheapest_eq_nil.1 hl'))]
      exact .refused _
    | cons c l =>
      rw [hl] at hlength
      cases l with
      | nil =>
        obtain ⟨c', hl'⟩ := List.length_eq_one_iff.1 hlength.symm
        rw [resolve_chosen hl, resolve_chosen hl']
        exact .of_singleton hl hl' htied
      | cons d l =>
        cases hl' : cheapest (t'.viable options name args) with
        | nil =>
          rw [hl'] at hlength
          cases hlength
        | cons c' l' =>
          cases l' with
          | nil =>
            rw [hl'] at hlength
            cases hlength
          | cons d' l' =>
            rw [resolve_tied hl, resolve_tied hl']
            exact .ambiguous name span htied
  · rw [resolve_unknown fun e he heq => hname ⟨e, he, heq⟩,
      resolve_unknown fun e he heq => hname (hnames.2 ⟨e, he, heq⟩)]
    exact .refused _

/-! ## The choice -/

/-- What a call selects from a table that declarations have built.  The name
    is unknown if no function has it; it has no match if none of its functions
    takes the arguments; it is ambiguous if two of them take the arguments at
    the least cost; and otherwise the one that does is selected.  A function
    with exactly the types of the arguments always is.  Two tables with the
    same prototypes, whatever their orders, give the same answer. -/
theorem resolve_picks_cheapest {t : Functions} (ht : t.Built) (types : TypeTable)
    (options : Options) (name : String) (args : List TypeId) (span : Span) :
    (t.resolve types options name args span = .error ((Cause.unknownFunction name).atSpan span) ↔
      ∀ e ∈ t.entries, e.prototype.name ≠ name) ∧
    ((∃ shown, t.resolve types options name args span =
        .error ((Cause.noMatchingOverload name shown).atSpan span)) ↔
      (∃ e ∈ t.entries, e.prototype.name = name) ∧
        ∀ e ∈ t.entries, ∀ cs, ¬e.prototype.Takes options name args cs) ∧
    ((∃ shown, t.resolve types options name args span =
        .error ((Cause.ambiguousOverload name shown).atSpan span)) ↔
      ∃ id cs id' cs', id ≠ id' ∧ t.Cheapest options name args id cs ∧
        t.Cheapest options name args id' cs') ∧
    (∀ c, t.resolve types options name args span = .ok c ↔
      t.Cheapest options name args c.entry c.conversions ∧
        c.cost = c.conversions.count .intToFloat ∧
        ∀ id cs, t.Cheapest options name args id cs → id = c.entry) ∧
    (∀ id e, t.get? id = some e → e.prototype.name = name → e.prototype.paramTypes = args →
      t.resolve types options name args span =
        .ok ⟨id, List.replicate args.length .identity, 0⟩) ∧
    ∀ t' : Functions, t'.Built →
      (t.entries.map (·.prototype)).Perm (t'.entries.map (·.prototype)) →
      SameAnswer types t t' (t.resolve types options name args span)
        (t'.resolve types options name args span) := by
  -- One of four things holds, and each of them has its answer.
  have hfour : (∀ e ∈ t.entries, e.prototype.name ≠ name) ∨
      ((∃ e ∈ t.entries, e.prototype.name = name) ∧
        ∀ e ∈ t.entries, ∀ cs, ¬e.prototype.Takes options name args cs) ∨
      (∃ c d l, cheapest (t.viable options name args) = c :: d :: l) ∨
      ∃ c, cheapest (t.viable options name args) = [c] := by
    by_cases hname : ∃ e ∈ t.entries, e.prototype.name = name
    · cases hl : cheapest (t.viable options name args) with
      | nil => exact .inr (.inl ⟨hname, viable_eq_nil.1 (cheapest_eq_nil.1 hl)⟩)
      | cons c l =>
        cases l with
        | nil => exact .inr (.inr (.inr ⟨c, rfl⟩))
        | cons d l => exact .inr (.inr (.inl ⟨c, d, l, rfl⟩))
    · exact .inl fun e he heq => hname ⟨e, he, heq⟩
  refine ⟨⟨fun h => ?_, resolve_unknown⟩, ⟨fun h => ?_, fun h => ⟨_, resolve_unmatched h.1 h.2⟩⟩,
    ⟨fun h => ?_, fun h => ?_⟩, fun c => ⟨fun h => ?_, fun h =>
      resolve_chosen (cheapest_eq_singleton.2 h)⟩, fun id e he hname hparams =>
      resolve_chosen (ht.apart.cheapest_exact he hname hparams), fun t' ht' hperm =>
      ht.apart.sameAnswer ht'.apart hperm types options name args span⟩
  · rcases hfour with hun | hno | ⟨_, _, _, hl⟩ | ⟨_, hl⟩
    · exact hun
    · rw [resolve_unmatched hno.1 hno.2] at h
      cases h
    · rw [resolve_tied hl] at h
      cases h
    · rw [resolve_chosen hl] at h
      cases h
  · obtain ⟨shown, h⟩ := h
    rcases hfour with hun | hno | ⟨_, _, _, hl⟩ | ⟨_, hl⟩
    · rw [resolve_unknown hun] at h
      cases h
    · exact hno
    · rw [resolve_tied hl] at h
      cases h
    · rw [resolve_chosen hl] at h
      cases h
  · obtain ⟨shown, h⟩ := h
    rcases hfour with hun | hno | hl | ⟨_, hl⟩
    · rw [resolve_unknown hun] at h
      cases h
    · rw [resolve_unmatched hno.1 hno.2] at h
      cases h
    · exact exists_cheapest_eq_cons_cons.1 hl
    · rw [resolve_chosen hl] at h
      cases h
  · obtain ⟨c, d, l, hl⟩ := exists_cheapest_eq_cons_cons.2 h
    exact ⟨_, resolve_tied hl⟩
  · rcases hfour with hun | hno | ⟨_, _, _, hl⟩ | ⟨_, hl⟩
    · rw [resolve_unknown hun] at h
      cases h
    · rw [resolve_unmatched hno.1 hno.2] at h
      cases h
    · rw [resolve_tied hl] at h
      cases h
    · rw [resolve_chosen hl] at h
      cases h
      exact cheapest_eq_singleton.1 hl

/-- The table of some prototypes, declared in order. -/
def ofPrototypes (ps : List Prototype) : Functions :=
  (ps.foldl (fun w p => ((Lower.declare .builtins p).run w).2)
    (Progress.start (.empty "scene") .empty).work).symbols.functions

theorem ofPrototypes_built (ps : List Prototype) : (ofPrototypes ps).Built := by
  have hfold : ∀ w : Work, w.symbols.functions.Built →
      (ps.foldl (fun w p => ((Lower.declare .builtins p).run w).2) w).symbols.functions.Built := by
    induction ps with
    | nil => exact fun _ h => h
    | cons p ps ih => exact fun w h => ih _ (.declare .builtins p h)
  exact hfold _ .empty

/-- `float mix(int, float)` and `float mix(float, int)` -/
def mixes : List Prototype :=
  let mix (a b : Builtin) : Prototype :=
    ⟨"mix", none, Builtin.float.id, [⟨"a", a.id, .unknown⟩, ⟨"b", b.id, .unknown⟩], .unknown⟩
  [mix .int .float, mix .float .int]

/-- In either order two integers fit both functions, and an integer behind a
    float fits one of them exactly. -/
theorem resolve_picks_cheapest_mixes :
    (ofPrototypes mixes).resolve .builtins .default "mix" [Builtin.float.id, Builtin.int.id]
        .unknown = .ok ⟨1, [.identity, .identity], 0⟩ ∧
      (ofPrototypes mixes).resolve .builtins .default "mix" [Builtin.int.id, Builtin.int.id]
        .unknown = .error ((Cause.ambiguousOverload "mix"
          "mix(int, float), mix(float, int)").atSpan .unknown) ∧
      (ofPrototypes mixes.reverse).resolve .builtins .default "mix"
        [Builtin.int.id, Builtin.int.id] .unknown = .error ((Cause.ambiguousOverload "mix"
          "mix(float, int), mix(int, float)").atSpan .unknown) ∧
      SameAnswer .builtins (ofPrototypes mixes) (ofPrototypes mixes.reverse)
        ((ofPrototypes mixes).resolve .builtins .default "mix" [Builtin.int.id, Builtin.int.id]
          .unknown)
        ((ofPrototypes mixes.reverse).resolve .builtins .default "mix"
          [Builtin.int.id, Builtin.int.id] .unknown) := by
  have hexact := (resolve_picks_cheapest (ofPrototypes_built mixes) .builtins .default "mix"
    [Builtin.float.id, Builtin.int.id] .unknown).2.2.2.2.1
  have horder := (resolve_picks_cheapest (ofPrototypes_built mixes) .builtins .default "mix"
    [Builtin.int.id, Builtin.int.id] .unknown).2.2.2.2.2
  refine ⟨?_, by decide +kernel, by decide +kernel, ?_⟩
  · exact hexact 1 ((ofPrototypes mixes).entries[1]!) (by decide +kernel) (by decide +kernel)
      (by decide +kernel)
  · exact horder _ (ofPrototypes_built mixes.reverse) (by decide +kernel)

end Functions

end Shading
