import Mathlib.Data.List.Nodup
import Shading.Proofs.Functions
import Shading.Proofs.TypeIndexes

/-! # Symbols of functions

    The symbol of a function of this program is its name, a dollar sign and
    the tokens of its parameter types with dots between them.  If tokens hold
    neither of the two signs, a symbol tells where the name ends and what the
    parameter types are, whatever the name looks like.  Main result: over
    such a table, functions of one symbol have one name and the same
    parameter types (`TypeTable.PlainTokens.mangledName_injective`).  The
    built-in types have such tokens. -/

namespace Shading

/-! ## Tokens -/

/-- A token is some text without dots and dollar signs. -/
theorem Builtin.token_plain (b : Builtin) :
    b.token.toList ≠ [] ∧ '.' ∉ b.token.toList ∧ '$' ∉ b.token.toList := by
  cases b <;> decide

theorem TypeTable.builtins_tokenOf? {id : TypeId} {token : String} :
    builtins.tokenOf? id = some token ↔ ∃ b : Builtin, id = b.id ∧ token = b.token := by
  unfold tokenOf?
  rw [Option.map_eq_some_iff]
  constructor
  · rintro ⟨d, hd, rfl⟩
    obtain ⟨b, rfl, rfl⟩ := builtins_get?_eq_some.1 hd
    exact ⟨b, rfl, rfl⟩
  · rintro ⟨b, rfl, rfl⟩
    exact ⟨b.descriptor, builtins_get? b, rfl⟩

/-! ## Reading a symbol back -/

/-- The last of several signs splits a text in one way. -/
theorem append_cons_inj {α : Type} {x y u v : List α} {a : α} (hu : a ∉ u) (hv : a ∉ v)
    (h : x ++ a :: u = y ++ a :: v) : x = y ∧ u = v := by
  rcases List.append_eq_append_iff.1 h with ⟨c, rfl, hc⟩ | ⟨c, rfl, hc⟩
  · cases c with
    | nil => simpa using hc
    | cons b c =>
      obtain ⟨rfl, rfl⟩ := List.cons.inj hc
      simp at hu
  · cases c with
    | nil => simpa [eq_comm] using hc
    | cons b c =>
      obtain ⟨rfl, rfl⟩ := List.cons.inj hc
      simp at hv

/-- Tokens can be told apart in a dotted list. -/
theorem dotted_injective {as bs : List String} (ha : ∀ s ∈ as, s.toList ≠ [] ∧ '.' ∉ s.toList)
    (hb : ∀ s ∈ bs, s.toList ≠ [] ∧ '.' ∉ s.toList)
    (h : (".".intercalate as).toList = (".".intercalate bs).toList) : as = bs := by
  -- Splitting at the dots gives the parts back, except that `[]` joins to the text of `[""]`.
  have hsplit : ∀ ss : List String, (∀ s ∈ ss, s.toList ≠ [] ∧ '.' ∉ s.toList) → ss ≠ [] →
      (".".intercalate ss).toList.splitOn '.' = ss.map String.toList := by
    intro ss hss hne
    rw [String.toList_intercalate]
    refine List.splitOn_intercalate '.' (fun l hl => ?_) (by simpa using hne)
    obtain ⟨s, hs, rfl⟩ := List.mem_map.1 hl
    exact (hss s hs).2
  -- No part is empty, so that exception does not arise.
  have hempty : ∀ ss : List String, (∀ s ∈ ss, s.toList ≠ [] ∧ '.' ∉ s.toList) →
      (".".intercalate ss).toList = [] → ss = [] := by
    intro ss hss hnil
    by_contra hne
    have hparts := hsplit ss hss hne
    rw [hnil] at hparts
    cases ss with
    | nil => exact hne rfl
    | cons s rest =>
      have hs : s.toList = [] := by simpa using (List.cons.inj hparts).1.symm
      exact (hss s List.mem_cons_self).1 hs
  by_cases has : as = []
  · subst has
    exact (hempty bs hb h.symm).symm
  · have hbs : bs ≠ [] := fun hbs => has (hempty as ha (h.trans (by rw [hbs]; rfl)))
    have hparts := (hsplit as ha has).symm.trans ((congrArg _ h).trans (hsplit bs hb hbs))
    exact List.map_injective_iff.2 (fun _ _ => String.toList_inj.1) hparts

theorem dollar_notMem_dotted {ss : List String} (h : ∀ s ∈ ss, '$' ∉ s.toList) :
    '$' ∉ (".".intercalate ss).toList := by
  rw [String.toList_intercalate]
  induction ss with
  | nil => simp
  | cons s rest ih =>
    have hrest := ih fun t ht => h t (List.mem_cons_of_mem _ ht)
    have hs := h s List.mem_cons_self
    cases rest with
    | nil => simpa using hs
    | cons t rest =>
      simp only [List.map_cons, List.intercalate_cons_cons] at hrest ⊢
      simp only [List.mem_append, not_or]
      exact ⟨⟨hs, by decide⟩, hrest⟩

/-! ## Symbols -/

/-- Each token belongs to one type, and none holds a sign that symbols use. -/
structure TypeTable.PlainTokens (t : TypeTable) : Prop where
  indexed : t.Indexed
  plain : ∀ d ∈ t.descriptors,
    d.token.toList ≠ [] ∧ '.' ∉ d.token.toList ∧ '$' ∉ d.token.toList

theorem TypeTable.builtins_plainTokens : builtins.PlainTokens where
  indexed := Holds.builtins.indexed
  plain d hd := by
    rw [Holds.builtins.descriptors_eq, List.mem_reverse] at hd
    obtain ⟨b, -, rfl⟩ := List.mem_map.1 hd
    exact b.token_plain

namespace Prototype

variable {p q : Prototype} {symbol : String}

/-- The tokens behind the name. -/
theorem mangledName_tokens {t : TypeTable} (h : p.mangledName t = .ok symbol) :
    ∃ tokens, List.Forall₂ (fun ty token => t.tokenOf? ty = some token) p.paramTypes tokens ∧
      symbol = p.name ++ "$" ++ ".".intercalate tokens := by
  obtain ⟨tokens, htokens, hsymbol⟩ := Except.bind_eq_ok h
  cases hsymbol
  refine ⟨tokens, ?_, rfl⟩
  unfold paramTypes
  rw [List.forall₂_map_left_iff]
  refine (Except.mapM_eq_ok htokens).imp fun param token hparam => ?_
  cases htoken : t.tokenOf? param.ty with
  | none =>
    simp only [htoken] at hparam
    cases hparam
  | some token' =>
    simp only [htoken] at hparam
    cases hparam
    rfl

/-- The built-in types behind the name. -/
theorem mangledName_eq_ok (h : p.mangledName .builtins = .ok symbol) :
    ∃ bs : List Builtin, p.paramTypes = bs.map Builtin.id ∧
      symbol = p.name ++ "$" ++ ".".intercalate (bs.map Builtin.token) := by
  obtain ⟨tokens, htokens, rfl⟩ := mangledName_tokens h
  suffices hbs : ∃ bs : List Builtin, p.paramTypes = bs.map Builtin.id ∧
      tokens = bs.map Builtin.token by
    obtain ⟨bs, hty, rfl⟩ := hbs
    exact ⟨bs, hty, rfl⟩
  clear h
  -- By induction on the types, each of which has the token of a builtin.
  generalize p.paramTypes = types at htokens
  induction htokens with
  | nil => exact ⟨[], rfl, rfl⟩
  | cons htoken _ ih =>
    obtain ⟨bs, rfl, rfl⟩ := ih
    obtain ⟨b, rfl, rfl⟩ := TypeTable.builtins_tokenOf?.1 htoken
    exact ⟨b :: bs, rfl, rfl⟩

end Prototype

namespace TypeTable.PlainTokens

variable {t : TypeTable} {p q : Prototype} {symbol : String}

theorem tokenOf?_injective (ht : t.PlainTokens) {id id' : TypeId} {token : String}
    (h : t.tokenOf? id = some token) (h' : t.tokenOf? id' = some token) : id = id' := by
  have howner := (ht.indexed.byToken _ _).2 (Option.map_eq_some_iff.1 h)
  have howner' := (ht.indexed.byToken _ _).2 (Option.map_eq_some_iff.1 h')
  exact Option.some.inj (howner.symm.trans howner')

theorem mangledName_injective (ht : t.PlainTokens) (hp : p.mangledName t = .ok symbol)
    (hq : q.mangledName t = .ok symbol) : p.name = q.name ∧ p.paramTypes = q.paramTypes := by
  obtain ⟨as, has, rfl⟩ := Prototype.mangledName_tokens hp
  obtain ⟨bs, hbs, hsymbol⟩ := Prototype.mangledName_tokens hq
  -- Tokens are looked up in the table, where all are plain.
  have hplain : ∀ {tys : List TypeId} {cs : List String},
      List.Forall₂ (fun ty token => t.tokenOf? ty = some token) tys cs →
      ∀ s ∈ cs, s.toList ≠ [] ∧ '.' ∉ s.toList ∧ '$' ∉ s.toList := by
    intro tys cs hcs
    induction hcs with
    | nil => simp
    | cons htoken _ ih =>
      obtain ⟨d, hd, rfl⟩ := Option.map_eq_some_iff.1 htoken
      exact List.forall_mem_cons.2 ⟨ht.plain d ((ht.indexed.byId _ _).1 hd).1, ih⟩
  have hchars := congrArg String.toList hsymbol
  simp only [String.toList_append, List.append_assoc] at hchars
  -- The last dollar sign separates the name from the tokens, as no token holds one.
  obtain ⟨hname, htokens⟩ := append_cons_inj
    (dollar_notMem_dotted fun s hs => (hplain has s hs).2.2)
    (dollar_notMem_dotted fun s hs => (hplain hbs s hs).2.2) hchars
  have hlists := dotted_injective (fun s hs => ⟨(hplain has s hs).1, (hplain has s hs).2.1⟩)
    (fun s hs => ⟨(hplain hbs s hs).1, (hplain hbs s hs).2.1⟩) htokens
  subst hlists
  have hunique : Relator.LeftUnique fun ty token => t.tokenOf? ty = some token :=
    fun _ _ _ h h' => ht.tokenOf?_injective h h'
  exact ⟨String.toList_inj.1 hname, hunique.forall₂ has hbs⟩

end TypeTable.PlainTokens

theorem Prototype.mangledName_injective {p q : Prototype} {symbol : String}
    (hp : p.mangledName .builtins = .ok symbol) (hq : q.mangledName .builtins = .ok symbol) :
    p.name = q.name ∧ p.paramTypes = q.paramTypes :=
  TypeTable.builtins_plainTokens.mangledName_injective hp hq

end Shading
