import Mathlib.Tactic.Tauto
import Shading.Proofs.Indexes

/-! # How registered types are found

    A type is found by its name, by its identity and by its token, through
    an index of each.  A new table takes the built-in types as they are, and
    every later type must bring a name, an identity and a token that no other
    one has, in whatever way it comes by them.  So the three indexes always
    agree, and a type that is refused is refused because of one that is there
    (`registration_keeps_types_indexed`). -/

namespace Shading

variable {existing name token : String} {id : TypeId}

namespace TypeTable

/-! ## Tables of lists

    Whatever a table holds was entered one after the other, so its three
    indexes are those of one list of types. -/

/-- The table of some types that are entered one after the other. -/
def ofList (ds : List Descriptor) : TypeTable := ds.foldl insert empty

theorem ofList_concat (ds : List Descriptor) (d : Descriptor) :
    (ofList ds).insert d = ofList (ds ++ [d]) := by
  simp [ofList]

theorem ofList_eq (ds : List Descriptor) : ofList ds =
    ⟨⟨(ds.map fun d => (d.id, d)).reverse⟩, ⟨(ds.map fun d => (d.name, d.id)).reverse⟩,
      ⟨(ds.map fun d => (d.token, d.id)).reverse⟩⟩ := by
  induction ds using List.reverseRecOn with
  | nil => rfl
  | append_singleton ds d ih =>
    rw [← ofList_concat, ih]
    simp [insert, Index.insert]

theorem builtins_eq : builtins = ofList (Builtin.all.map Builtin.descriptor) := by
  rw [ofList, List.foldl_map]
  rfl

/-- A table holds some types, and each name, identity and token belongs to
    one of them. -/
structure Holds (t : TypeTable) (ds : List Descriptor) : Prop where
  built : t = ofList ds
  names : (ds.map (·.name)).Nodup
  ids : (ds.map (·.id)).Nodup
  tokens : (ds.map (·.token)).Nodup

/-- The places of a list that hold a pair of a key and a value. -/
theorem get?_reverse_map {κ α : Type} [DecidableEq κ] {key : Descriptor → κ} {val : Descriptor → α}
    {ds : List Descriptor} (h : (ds.map key).Nodup) {k : κ} {a : α} :
    Index.get? ⟨(ds.map fun d => (key d, val d)).reverse⟩ k = some a ↔
      ∃ d ∈ ds, key d = k ∧ val d = a := by
  rw [Index.get?_eq_some_iff]
  · simp
  · simpa [Function.comp_def] using h

section

variable {t t' : TypeTable} {ds : List Descriptor} {d : Descriptor}

/-- A type is kept under its own identity. -/
theorem Holds.get?_eq_some_iff (h : t.Holds ds) : t.get? id = some d ↔ d ∈ ds ∧ d.id = id := by
  rw [h.built, ofList_eq, get?, get?_reverse_map h.ids]
  constructor
  · rintro ⟨_, hmem, hid, rfl⟩
    exact ⟨hmem, hid⟩
  · rintro ⟨hmem, hid⟩
    exact ⟨d, hmem, hid, rfl⟩

/-- The identity that a name finds is that of the type with the name. -/
theorem Holds.lookup?_eq_some_iff (h : t.Holds ds) :
    t.lookup? name = some id ↔ ∃ d, t.get? id = some d ∧ d.name = name := by
  simp only [h.get?_eq_some_iff]
  rw [h.built, ofList_eq, lookup?, get?_reverse_map h.names]
  constructor <;> rintro ⟨d, hd⟩ <;> exact ⟨d, by tauto⟩

/-- The identity that a token finds is that of the type with the token. -/
theorem Holds.lookupToken?_eq_some_iff (h : t.Holds ds) :
    t.lookupToken? token = some id ↔ ∃ d, t.get? id = some d ∧ d.token = token := by
  simp only [h.get?_eq_some_iff]
  rw [h.built, ofList_eq, lookupToken?, get?_reverse_map h.tokens]
  constructor <;> rintro ⟨d, hd⟩ <;> exact ⟨d, by tauto⟩

theorem Holds.descriptors_eq (h : t.Holds ds) : t.descriptors = ds.reverse := by
  rw [h.built, ofList_eq, descriptors, Index.toList, Index.visible_of_nodup]
  · simp [Function.comp_def]
  · simpa [Function.comp_def] using h.ids

/-! ## Registration -/

theorem register_taken (h : t.lookup? d.name ≠ none) :
    t.register d = .error (.duplicateType d.name) := by
  have hcontains : t.byName.contains d.name = true := Option.isSome_iff_ne_none.2 h
  rw [register, if_pos hcontains]

theorem contains_name_of_free (h : t.lookup? d.name = none) :
    ¬ t.byName.contains d.name = true := by
  rw [Index.contains, show t.byName.get? d.name = none from h]
  simp

theorem register_clash (h : t.lookup? d.name = none) (hclash : t.clash? d = some existing) :
    t.register d = .error (.collision d.name existing) := by
  simp only [register, if_neg (contains_name_of_free h), hclash]

theorem register_new (h : t.lookup? d.name = none) (hclash : t.clash? d = none) :
    t.register d = .ok (t.insert d) := by
  simp only [register, if_neg (contains_name_of_free h), hclash]

/-- What is registered has been entered. -/
theorem register_eq_insert (h : t.register d = .ok t') : t' = t.insert d := by
  unfold register at h
  split at h
  · cases h
  · split at h
    · cases h
    · exact (Except.ok.inj h).symm

/-- The type that is in the way of a new one: the owner of its identity, if
    there is one, and else the owner of its token. -/
def InTheWay (t : TypeTable) (d other : Descriptor) : Prop :=
  t.get? d.id = some other ∨
    t.get? d.id = none ∧ ∃ id, t.lookupToken? d.token = some id ∧ t.get? id = some other

theorem clash?_eq_some_iff :
    t.clash? d = some existing ↔ ∃ other, t.InTheWay d other ∧ other.name = existing := by
  unfold clash? InTheWay nameOf?
  rw [Option.or_eq_some_iff, Option.map_eq_some_iff, Option.map_eq_none_iff,
    Option.bind_eq_some_iff]
  simp only [Option.map_eq_some_iff]
  constructor
  · rintro (⟨other, hid, hname⟩ | ⟨hid, id, htoken, other, hother, hname⟩)
    · exact ⟨other, .inl hid, hname⟩
    · exact ⟨other, .inr ⟨hid, id, htoken, hother⟩, hname⟩
  · rintro ⟨other, hid | ⟨hid, id, htoken, hother⟩, hname⟩
    · exact .inl ⟨other, hid, hname⟩
    · exact .inr ⟨hid, id, htoken, other, hother, hname⟩

/-- Nothing clashes if identity and token are new.  A token that is known
    leads to a type. -/
theorem Holds.clash?_eq_none_iff (h : t.Holds ds) :
    t.clash? d = none ↔ t.get? d.id = none ∧ t.lookupToken? d.token = none := by
  unfold clash? nameOf?
  rw [Option.or_eq_none_iff, Option.map_eq_none_iff]
  refine and_congr_right fun _ => ?_
  cases htoken : t.lookupToken? d.token with
  | none => simp
  | some id =>
    obtain ⟨other, hother, -⟩ := h.lookupToken?_eq_some_iff.1 htoken
    simp [hother]

/-- A type is registered behind the others if its keys are new. -/
theorem Holds.register_eq_ok_iff (h : t.Holds ds) : t.register d = .ok t' ↔
    (t.lookup? d.name = none ∧ t.get? d.id = none ∧ t.lookupToken? d.token = none) ∧
      t' = t.insert d := by
  rw [← h.clash?_eq_none_iff]
  by_cases hname : t.lookup? d.name = none
  · cases hclash : t.clash? d with
    | none => simp [register_new hname hclash, hname, eq_comm]
    | some existing => simp [register_clash hname hclash]
  · simp [register_taken hname, hname]

/-- What a new type keeps. -/
theorem Holds.register (h : t.Holds ds) (hd : t.register d = .ok t') : t'.Holds (ds ++ [d]) := by
  obtain ⟨⟨hname, hid, htoken⟩, rfl⟩ := h.register_eq_ok_iff.1 hd
  -- A key of a type that is there is found, so it is not the new one.
  have hfound : ∀ other ∈ ds, t.get? other.id = some other := fun other hmem =>
    h.get?_eq_some_iff.2 ⟨hmem, rfl⟩
  refine ⟨by rw [h.built, ofList_concat], ?_, ?_, ?_⟩ <;>
    rw [List.map_append, List.map_singleton, ← List.concat_eq_append]
  · refine h.names.concat fun hmem => ?_
    obtain ⟨other, hother, hsame⟩ := List.mem_map.1 hmem
    rw [h.lookup?_eq_some_iff.2 ⟨other, hfound other hother, hsame⟩] at hname
    cases hname
  · refine h.ids.concat fun hmem => ?_
    obtain ⟨other, hother, hsame⟩ := List.mem_map.1 hmem
    rw [h.get?_eq_some_iff.2 ⟨hother, hsame⟩] at hid
    cases hid
  · refine h.tokens.concat fun hmem => ?_
    obtain ⟨other, hother, hsame⟩ := List.mem_map.1 hmem
    rw [h.lookupToken?_eq_some_iff.2 ⟨other, hfound other hother, hsame⟩] at htoken
    cases htoken

theorem Holds.empty : TypeTable.empty.Holds [] :=
  ⟨rfl, List.nodup_nil, List.nodup_nil, List.nodup_nil⟩

/-- The built-in types are taken without a check, and need none. -/
theorem Holds.builtins : TypeTable.builtins.Holds (Builtin.all.map Builtin.descriptor) where
  built := builtins_eq
  names := by decide +kernel
  ids := Builtin.ids_nodup
  tokens := by decide +kernel

/-- What a registration leaves behind, refused or not. -/
def attempt (t : TypeTable) (d : Descriptor) : TypeTable := (t.register d).toOption.getD t

/-- Registrations one after the other. -/
def attemptAll (t : TypeTable) (ds : List Descriptor) : TypeTable := ds.foldl attempt t

theorem attempt_of_error {e : RegistrationError} (h : t.register d = .error e) :
    t.attempt d = t := by
  rw [attempt, h]
  rfl

theorem attempt_of_ok (h : t.register d = .ok t') : t.attempt d = t' := by
  rw [attempt, h]
  rfl

theorem Holds.attempt (h : t.Holds ds) (d : Descriptor) : ∃ ds, (t.attempt d).Holds ds := by
  cases hd : t.register d with
  | error e =>
    rw [attempt_of_error hd]
    exact ⟨ds, h⟩
  | ok t' =>
    rw [attempt_of_ok hd]
    exact ⟨ds ++ [d], h.register hd⟩

theorem Holds.attemptAll (h : t.Holds ds) (new : List Descriptor) :
    ∃ ds, (t.attemptAll new).Holds ds := by
  refine List.foldlRecOn (motive := fun t : TypeTable => ∃ ds, t.Holds ds) new _ ⟨ds, h⟩
    fun _ hm d _ => ?_
  obtain ⟨_, hm⟩ := hm
  exact hm.attempt d

/-! ## Agreement -/

/-- Each name, identity and token belongs to one type, and the three ways to
    find a type agree. -/
structure Indexed (t : TypeTable) : Prop where
  names : (t.descriptors.map (·.name)).Nodup
  ids : (t.descriptors.map (·.id)).Nodup
  tokens : (t.descriptors.map (·.token)).Nodup
  byName : ∀ name id, t.lookup? name = some id ↔ ∃ d, t.get? id = some d ∧ d.name = name
  byToken : ∀ token id, t.lookupToken? token = some id ↔ ∃ d, t.get? id = some d ∧ d.token = token
  /-- A type is kept under its own identity. -/
  byId : ∀ d id, t.get? id = some d ↔ d ∈ t.descriptors ∧ d.id = id

theorem Holds.indexed (h : t.Holds ds) : t.Indexed where
  names := by simpa [h.descriptors_eq] using h.names
  ids := by simpa [h.descriptors_eq] using h.ids
  tokens := by simpa [h.descriptors_eq] using h.tokens
  byName _ _ := h.lookup?_eq_some_iff
  byToken _ _ := h.lookupToken?_eq_some_iff
  byId _ _ := by rw [h.get?_eq_some_iff, h.descriptors_eq, List.mem_reverse]

/-- How a table answers to a new type. -/
structure Answers (t : TypeTable) (d : Descriptor) : Prop where
  accepted : (∃ t', t.register d = .ok t') ↔
    t.lookup? d.name = none ∧ t.get? d.id = none ∧ t.lookupToken? d.token = none
  /-- A new type is found under its identity, and the others as before. -/
  added : ∀ t', t.register d = .ok t' →
    t.attempt d = t' ∧ t'.get? d.id = some d ∧ ∀ id, id ≠ d.id → t'.get? id = t.get? id
  duplicate : ∀ name, t.register d = .error (.duplicateType name) ↔
    name = d.name ∧ ∃ id, t.lookup? d.name = some id
  collision : ∀ name existing, t.register d = .error (.collision name existing) ↔
    name = d.name ∧ t.lookup? d.name = none ∧ ∃ other, t.InTheWay d other ∧ other.name = existing
  refused : ∀ e, t.register d = .error e → t.attempt d = t

theorem register_eq_duplicate_iff :
    t.register d = .error (.duplicateType name) ↔
      name = d.name ∧ ∃ id, t.lookup? d.name = some id := by
  rw [← Option.ne_none_iff_exists']
  by_cases hname : t.lookup? d.name = none
  · cases hclash : t.clash? d with
    | none => simp [register_new hname hclash, hname]
    | some existing => simp [register_clash hname hclash, hname]
  · simp [register_taken hname, hname, eq_comm]

theorem register_eq_collision_iff :
    t.register d = .error (.collision name existing) ↔ name = d.name ∧ t.lookup? d.name = none ∧
      ∃ other, t.InTheWay d other ∧ other.name = existing := by
  rw [← clash?_eq_some_iff]
  by_cases hname : t.lookup? d.name = none
  · cases hclash : t.clash? d with
    | none => simp [register_new hname hclash]
    | some other => simp [register_clash hname hclash, hname, eq_comm]
  · simp [register_taken hname, hname]

theorem Holds.answers (h : t.Holds ds) (d : Descriptor) : t.Answers d where
  accepted := by simp [h.register_eq_ok_iff]
  added t' hd := by
    obtain ⟨-, rfl⟩ := h.register_eq_ok_iff.1 hd
    exact ⟨attempt_of_ok hd, Index.get?_insert_self .., fun _ hne => Index.get?_insert_ne _ hne _⟩
  duplicate _ := register_eq_duplicate_iff
  collision _ _ := register_eq_collision_iff
  refused _ hd := attempt_of_error hd

end

end TypeTable

/-- However types are registered, starting from nothing or from the built-in
    types, the name, the identity and the token of a type are its own and
    find it, and whether a further type is accepted, and why not, can be said
    in terms of them. -/
theorem registration_keeps_types_indexed {start : TypeTable}
    (hstart : start = .empty ∨ start = .builtins) (ds : List Descriptor) :
    (start.attemptAll ds).Indexed ∧ ∀ d, (start.attemptAll ds).Answers d := by
  have hholds : ∃ types, start.Holds types := by
    rcases hstart with rfl | rfl
    · exact ⟨_, .empty⟩
    · exact ⟨_, .builtins⟩
  obtain ⟨types, hstart⟩ := hholds
  obtain ⟨all, hall⟩ := hstart.attemptAll ds
  exact ⟨hall.indexed, hall.answers⟩

/-- A plain type with a name, a token and an identity of any kind. -/
def oddType (name token : String) (id : TypeId) : Descriptor :=
  ⟨name, token, id, some .f32, .none, .plain none none⟩

/-- The second type is refused, because the first has its token. -/
def oddTypes : List Descriptor := [oddType "spectrum" "sp" ⟨0⟩, oddType "alias" "sp" ⟨1⟩]

/-- A type with the identity of one built-in type and the token of another
    one meets the owner of the identity, and a taken name comes before both. -/
theorem oddTypes_indexed :
    (TypeTable.builtins.attemptAll oddTypes).Indexed ∧
      (TypeTable.builtins.attemptAll oddTypes).lookupToken? "sp" = some ⟨0⟩ ∧
      (TypeTable.builtins.attemptAll oddTypes).register (oddType "mixed" "f" Builtin.int.id) =
        .error (.collision "mixed" "int") ∧
      (TypeTable.builtins.attemptAll oddTypes).register (oddType "spectrum" "f" Builtin.int.id) =
        .error (.duplicateType "spectrum") := by
  obtain ⟨hindexed, hanswers⟩ := registration_keeps_types_indexed (.inr rfl) oddTypes
  refine ⟨hindexed, ?_, ?_, ?_⟩
  · refine (hindexed.byToken _ _).2 (Option.map_eq_some_iff.1 ?_)
    decide +kernel
  · have howner : ((TypeTable.builtins.attemptAll oddTypes).get? Builtin.int.id).map (·.name) =
        some "int" := by decide +kernel
    obtain ⟨other, hother, hname⟩ := Option.map_eq_some_iff.1 howner
    refine ((hanswers _).collision _ _).2 ⟨rfl, ?_, other, .inl hother, hname⟩
    decide +kernel
  · refine ((hanswers _).duplicate _).2 ⟨rfl, ⟨0⟩, ?_⟩
    decide +kernel

end Shading
