import Shading.Proofs.Mangling

/-! # Symbols over registered types

    A table may hold more than the built-in types.  Registration sees to it
    that each name, identity and token belongs to one type
    (`TypeTable.Registered.holds`), but it takes any text for a token.
    So two overloads can get one symbol, in several ways (`symbols_collide`);
    over tokens that are not empty and hold neither dots nor dollar signs,
    they never do (`registered_symbols_differ`). -/

namespace Shading

namespace TypeTable

/-- The tables that registration leads to. -/
inductive Registered : TypeTable → Prop
  | empty : Registered .empty
  | builtins : Registered .builtins
  | register {t t' : TypeTable} {d : Descriptor} (h : Registered t) (hd : t.register d = .ok t') :
    Registered t'

/-- Types that no check refuses are entered one after the other. -/
theorem foldlM_register {t : TypeTable} {ds : List Descriptor}
    (h : (ds.foldlM register t).isOk = true) : ds.foldlM register t = .ok (ds.foldl insert t) := by
  induction ds generalizing t with
  | nil => rfl
  | cons d rest ih =>
    rw [List.foldlM_cons] at h ⊢
    cases hd : t.register d with
    | error e =>
      rw [hd] at h
      cases h
    | ok t' =>
      rw [hd] at h
      obtain rfl : t' = t.insert d := register_eq_insert hd
      exact ih h

theorem Registered.foldlM {t t' : TypeTable} {ds : List Descriptor} (h : t.Registered)
    (hds : ds.foldlM TypeTable.register t = .ok t') : t'.Registered := by
  induction ds generalizing t with
  | nil =>
    cases hds
    exact h
  | cons d rest ih =>
    rw [List.foldlM_cons] at hds
    obtain ⟨t₁, hd, hrest⟩ := Except.bind_eq_ok hds
    exact ih (.register h hd) hrest

theorem Registered.holds {t : TypeTable} (h : t.Registered) : ∃ ds, t.Holds ds := by
  induction h with
  | empty => exact ⟨_, .empty⟩
  | builtins => exact ⟨_, .builtins⟩
  | register _ hd ih =>
    obtain ⟨ds, hholds⟩ := ih
    exact ⟨_, hholds.register hd⟩

end TypeTable

/-- Registered parameter types make a symbol. -/
theorem Prototype.mangledName_of_contains {t : TypeTable} {p : Prototype}
    (h : ∀ ty ∈ p.paramTypes, t.contains ty = true) : ∃ symbol, p.mangledName t = .ok symbol := by
  cases hname : p.mangledName t with
  | ok symbol => exact ⟨symbol, rfl⟩
  | error e =>
    obtain ⟨-, param, hmem, hnone⟩ := mangledName_error hname
    have hcontains := h param.ty (List.mem_map_of_mem hmem)
    have hget : t.get? param.ty = none := Option.map_eq_none_iff.1 hnone
    unfold TypeTable.contains Index.contains at hcontains
    rw [show t.types.get? param.ty = none from hget] at hcontains
    cases hcontains

/-- A symbol depends on the name and the parameter types alone. -/
theorem Prototype.mangledName_congr {t : TypeTable} {p q : Prototype} {a b : String}
    (hname : p.name = q.name) (hparams : p.paramTypes = q.paramTypes)
    (ha : p.mangledName t = .ok a) (hb : q.mangledName t = .ok b) : a = b := by
  obtain ⟨as, has, rfl⟩ := mangledName_tokens ha
  obtain ⟨bs, hbs, rfl⟩ := mangledName_tokens hb
  have hunique : Relator.RightUnique fun ty token => t.tokenOf? ty = some token :=
    fun _ _ _ h h' => Option.some.inj (h.symm.trans h')
  obtain rfl : as = bs := hunique.forall₂ (hparams ▸ has) hbs
  rw [hname]

/-- Two functions of this program over registered types get one symbol exactly
    if they have the same name and the same parameter types, provided that
    no token is empty or holds a dot or a dollar sign. -/
theorem registered_symbols_differ {t : TypeTable} (ht : t.Registered)
    (hplain : ∀ d ∈ t.descriptors,
      d.token.toList ≠ [] ∧ '.' ∉ d.token.toList ∧ '$' ∉ d.token.toList) {p q : Prototype}
    (hp : ∀ ty ∈ p.paramTypes, t.contains ty = true)
    (hq : ∀ ty ∈ q.paramTypes, t.contains ty = true) :
    ∃ a b, p.mangledName t = .ok a ∧ q.mangledName t = .ok b ∧
      (a = b ↔ p.name = q.name ∧ p.paramTypes = q.paramTypes) := by
  obtain ⟨a, ha⟩ := Prototype.mangledName_of_contains hp
  obtain ⟨b, hb⟩ := Prototype.mangledName_of_contains hq
  refine ⟨a, b, ha, hb, ?_, ?_⟩
  · rintro rfl
    obtain ⟨ds, hholds⟩ := ht.holds
    exact TypeTable.PlainTokens.mangledName_injective ⟨hholds.indexed, hplain⟩ ha hb
  · rintro ⟨hname, hparams⟩
    exact Prototype.mangledName_congr hname hparams ha hb

/-- A type that is nothing but a name, a token and a shape. -/
def plainType (name token : String) (shape : IR.Ty) : Descriptor :=
  ⟨name, token, .ofName name, some shape, .none, .plain none none⟩

/-- A function of this program with parameters of some types. -/
def overload (name : String) (types : List TypeId) : Prototype :=
  ⟨name, none, Builtin.int.id, types.map fun ty => ⟨"x", ty, .unknown⟩, .unknown⟩

/-- Types with tokens of their own. -/
def withColours : TypeTable :=
  [plainType "colour" "c" (.vector 3), plainType "alpha" "a" .f32].foldl TypeTable.insert .builtins

theorem withColours_registered : withColours.Registered :=
  .foldlM .builtins (TypeTable.foldlM_register (by decide +kernel))

theorem withColours_symbols_differ :
    ∃ a b, (overload "f" [.ofName "colour", .ofName "alpha"]).mangledName withColours = .ok a ∧
      (overload "f" [.ofName "alpha", .ofName "colour"]).mangledName withColours = .ok b ∧ a ≠ b := by
  have hcontains : ∀ types ∈ [[TypeId.ofName "colour", .ofName "alpha"],
      [.ofName "alpha", .ofName "colour"]], ∀ ty ∈ (overload "f" types).paramTypes,
      withColours.contains ty = true := by decide +kernel
  have hplain : ∀ d ∈ withColours.descriptors,
      d.token.toList ≠ [] ∧ '.' ∉ d.token.toList ∧ '$' ∉ d.token.toList := by decide +kernel
  obtain ⟨a, b, ha, hb, hiff⟩ := registered_symbols_differ withColours_registered hplain
    (hcontains _ (List.mem_cons_self)) (hcontains _ (List.mem_cons_of_mem _ List.mem_cons_self))
  refine ⟨a, b, ha, hb, fun heq => absurd (hiff.1 heq).2 ?_⟩
  decide +kernel

/-- Types whose tokens hold dots or dollar signs, or nothing. -/
def withOddTokens : TypeTable :=
  [plainType "pair" "i.i" .i32, plainType "mixed" "i.f" .f32, plainType "odd" "x$i" .i32,
    plainType "nothing" "" .i32].foldl TypeTable.insert .builtins

/-- Registration accepts such types, and then overloads share a symbol: with
    a dot in a token, with a dollar sign, and with an empty token. -/
theorem symbols_collide : withOddTokens.Registered ∧
    (overload "f" [Builtin.int.id, .ofName "mixed"]).mangledName withOddTokens = .ok "f$i.i.f" ∧
    (overload "f" [.ofName "pair", Builtin.float.id]).mangledName withOddTokens = .ok "f$i.i.f" ∧
    (overload "f" [.ofName "odd"]).mangledName withOddTokens = .ok "f$x$i" ∧
    (overload "f$x" [Builtin.int.id]).mangledName withOddTokens = .ok "f$x$i" ∧
    (overload "f" [.ofName "nothing"]).mangledName withOddTokens = .ok "f$" ∧
    (overload "f" []).mangledName withOddTokens = .ok "f$" := by
  refine ⟨.foldlM .builtins (TypeTable.foldlM_register (by decide +kernel)), ?_⟩
  decide +kernel

end Shading
