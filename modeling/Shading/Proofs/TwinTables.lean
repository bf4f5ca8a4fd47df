import Shading.Proofs.TwinBuilders
import Shading.Proofs.TwinStatements

/-! # Tables of functions side by side

    Two tables list the same prototypes, for functions at different positions
    of two modules.  What a call selects depends on the prototypes alone, so
    expressions, statements and bodies that are lowered with such tables into
    two modules side by side have their twins (`Joint.lowering`). -/

namespace Shading

open IR

/-! ## What is found in a table -/

namespace Functions

variable {g : Entry → Entry}

/-- The entries, changed one by one. -/
def mapEntries (t : Functions) (g : Entry → Entry) : Functions := ⟨t.entries.map g, _, rfl⟩

theorem mapEntries_overloads (hg : ∀ e, (g e).prototype = e.prototype) (t : Functions)
    (name : String) :
    (t.mapEntries g).overloads name = (t.overloads name).map (Prod.map g id) := by
  rw [overloads_eq, overloads_eq, mapEntries, List.zipIdx_map, List.filter_map]
  refine congrArg _ (List.filter_congr fun p _ => ?_)
  show ((g p.1).prototype.name == name) = (p.1.prototype.name == name)
  rw [hg]

theorem mapEntries_get? (t : Functions) (id : EntryId) :
    (t.mapEntries g).get? id = (t.get? id).map g := List.getElem?_map ..

/-- The function that a call selects depends on the prototypes alone. -/
theorem mapEntries_resolve (hg : ∀ e, (g e).prototype = e.prototype) (t : Functions)
    (types : TypeTable) (options : Options) (name : String) (args : List TypeId) (span : Span) :
    (t.mapEntries g).resolve types options name args span =
      t.resolve types options name args span := by
  have hcontains : (t.mapEntries g).contains name = t.contains name := by
    rw [Bool.eq_iff_iff, contains_eq_true_iff, contains_eq_true_iff]
    simp [mapEntries, hg]
  -- Candidates are weighed by their prototypes and named by their places in the table.
  have hviable : (t.mapEntries g).viable options name args = t.viable options name args := by
    unfold viable
    rw [mapEntries_overloads hg, List.filterMap_map]
    refine congrArg (List.filterMap · (t.overloads name)) (funext fun p => ?_)
    show candidate? options args (g p.1) p.2 = candidate? options args p.1 p.2
    unfold candidate?
    rw [hg]
  have hambiguous : ∀ tied,
      (t.mapEntries g).ambiguous types tied span = t.ambiguous types tied span := by
    intro tied
    have hdescribe : ((·.prototype.describe types) ∘ g) = (·.prototype.describe types) :=
      funext fun e => by simp [hg]
    have hname : ((·.prototype.name) ∘ g) = (·.prototype.name) := funext fun e => by simp [hg]
    unfold ambiguous
    simp only [mapEntries_get?, ← List.map_filterMap, List.map_map, hdescribe, Option.map_bind,
      Function.comp_def, Option.map_map]
    simp only [hg]
  unfold resolve best
  simp only [hcontains, hviable, hambiguous]

/-- So does what is known about a function. -/
theorem mapEntries_find (hg : ∀ e, (g e).prototype = e.prototype) (t : Functions)
    (p : Prototype) : (t.mapEntries g).find p = t.find p := by
  have hsame : ((fun q : Entry × EntryId => q.1.prototype.sameParams p) ∘ Prod.map g id) =
      fun q => q.1.prototype.sameParams p := funext fun q => by simp [hg]
  unfold find
  rw [mapEntries_overloads hg, List.find?_map, hsame]
  cases (t.overloads p.name).find? fun q => q.1.prototype.sameParams p with
  | none => rfl
  | some q =>
    obtain ⟨e, id⟩ := q
    simp only [Option.map_some, Prod.map, hg]
    rfl

/-- The table without positions and without marks. -/
def heads (t : Functions) : Functions := t.mapEntries fun e => ⟨e.prototype, 0, false⟩

theorem heads_eq {t t' : Functions}
    (h : t'.entries.map (·.prototype) = t.entries.map (·.prototype)) : t'.heads = t.heads := by
  have hheads : ∀ t : Functions,
      t.heads.entries = (t.entries.map (·.prototype)).map fun p => ⟨p, 0, false⟩ := fun t => by
    rw [List.map_map]
    rfl
  apply Functions.ext
  rw [hheads, hheads, h]

theorem resolve_eq {t t' : Functions}
    (h : t'.entries.map (·.prototype) = t.entries.map (·.prototype)) (types : TypeTable)
    (options : Options) (name : String) (args : List TypeId) (span : Span) :
    t'.resolve types options name args span = t.resolve types options name args span := by
  have hheads : ∀ t : Functions, t.heads.resolve types options name args span =
      t.resolve types options name args span := fun t =>
    mapEntries_resolve (g := fun e => ⟨e.prototype, 0, false⟩) (fun _ => rfl) t ..
  rw [← hheads t', ← hheads t, heads_eq h]

theorem find_eq {t t' : Functions}
    (h : t'.entries.map (·.prototype) = t.entries.map (·.prototype)) (p : Prototype) :
    t'.find p = t.find p := by
  have hheads : ∀ t : Functions, t.heads.find p = t.find p := fun t =>
    mapEntries_find (g := fun e => ⟨e.prototype, 0, false⟩) (fun _ => rfl) t p
  rw [← hheads t', ← hheads t, heads_eq h]

end Functions

/-! ## Entries -/

/-- A local function with an excepted symbol. -/
def Prototype.Excepted (D : String → Prop) (p : Prototype) : Prop :=
  p.isExternal = false ∧ ∃ s, p.irName .builtins = .ok s ∧ D s

/-- Entries with one prototype, which is none of the runtime, for functions at
    related positions.  Both are marked alike unless the function is excepted. -/
structure Entry.Beside (D : String → Prop) (R : FuncId → FuncId → Prop) (e e' : Entry) : Prop where
  prototype : e'.prototype = e.prototype
  func : R e.func e'.func
  defined : ¬ e.prototype.Excepted D → e'.defined = e.defined
  links : ∀ symbol, e.prototype.symbol = some symbol → symbol ∉ Distribution.symbols

theorem Entry.Beside.mono {D : String → Prop} {R R' : FuncId → FuncId → Prop} {e e' : Entry}
    (h : e.Beside D R e') (hR : ∀ c c', R c c' → R' c c') : e.Beside D R' e' :=
  ⟨h.prototype, hR _ _ h.func, h.defined, h.links⟩

theorem Entry.Beside.prototypes {D : String → Prop} {R : FuncId → FuncId → Prop}
    {l l' : List Entry} (h : List.Forall₂ (Entry.Beside D R) l l') :
    l'.map (·.prototype) = l.map (·.prototype) := by
  induction h with
  | nil => rfl
  | cons he _ ih => rw [List.map_cons, List.map_cons, he.prototype, ih]

namespace Joint

variable {J : Joint} {s s' : Symbols}

/-- The same variables and control structures, and entries for the functions
    that may be called. -/
structure Tables (J : Joint) (s s' : Symbols) : Prop where
  scopes : s'.scopes = s.scopes
  control : s'.control = s.control
  entries : List.Forall₂ (Entry.Beside J.excepted J.callees) s.functions.entries
    s'.functions.entries

/-! ## Expressions -/

/-- Expressions are lowered alike with tables side by side. -/
theorem expressions (options : Options) (h : J.Tables s s') :
    Expr.Pairing .builtins options options (J.bond Fault)
      (fun f f' => f = J.left ∧ f' = J.right) s s' where
  toPairing := J.pairing
  scopes := h.scopes
  coerce := J.primitives.coerce _
  call callee span args args' hargs := by
    -- The same place of the tables is selected; the functions there may be called.
    refine .bind hargs fun xs => ?_
    rw [Functions.resolve_eq (Entry.Beside.prototypes h.entries)]
    refine .bind (.ofExcept _) fun chosen => ?_
    unfold Functions.entry Functions.get?
    rcases forall₂_getElem? h.entries chosen.entry with ⟨hnone, hnone'⟩ | ⟨e, e', he, he', hentry⟩
    · rw [hnone, hnone']
      exact .throw _
    · rw [he, he']
      show (J.bond Fault).Twin Eq (Lower.convertArgs xs chosen.conversions >>= fun _ => _)
        (Lower.convertArgs xs chosen.conversions >>= fun _ => _)
      rw [hentry.prototype]
      exact .bind (J.primitives.convertArgs xs _) fun operands =>
        .bind (lift (call_twin hentry.func _)) fun _ =>
          .bind (.forM J.pairing.release) fun _ => .pure rfl

/-! ## Statements -/

/-- Both runs go on or are refused alike, and note the same after what was
    noted before. -/
structure Works (J : Joint) (ds ds' : Diagnostics) (w w' : Work) : Prop where
  builders : J.Agrees w.builder w'.builder
  tables : J.Tables w.symbols w'.symbols
  diagnostics : ∃ new, w.diagnostics = ds ++ new ∧ w'.diagnostics = ds' ++ new

def works (J : Joint) (ds ds' : Diagnostics) : Act.Bond Work Fault :=
  ⟨J.Works ds ds', fun _ _ _ => False, False⟩

variable {ds ds' : Diagnostics}

theorem works_plain : (J.works ds ds').Plain := fun _ _ _ h => h

theorem Agrees.isTerminated {b b' : Builder} (h : J.Agrees b b') :
    b'.isTerminated = b.isTerminated := by
  obtain ⟨f, f', hf, hf', hlike⟩ := h.bodies
  unfold Builder.isTerminated
  rw [h.cursor]
  cases hc : b.cursor with
  | none => rfl
  | some c =>
    simp only [Option.map_some, h.func c hc, hf, hf', Option.any_some]
    exact hlike.isTerminated c.block

/-- Statements are lowered alike into modules side by side. -/
theorem lowering (J : Joint) (ds ds' : Diagnostics) (options : Options) :
    Lower.Pairing .builtins options options (J.works ds ds') (J.bond Fault)
      (fun f f' => f = J.left ∧ f' = J.right) J.Tables where
  builds := J.pairing
  exprs h := expressions options h
  control h := h.control
  emit hx := by
    refine hx.onPart (fun _ _ h => h.builders) (fun _ _ _ _ h hb => ?_) bond_plain id
      fun _ _ _ _ h => h
    exact ⟨hb, h.tables, h.diagnostics⟩
  symbols h := h.tables
  isTerminated h := h.builders.isTerminated
  locally h g c := by
    refine ⟨h.builders, ⟨?_, ?_, h.tables.entries⟩, h.diagnostics⟩
    · exact congrArg g h.tables.scopes
    · exact congrArg c h.tables.control
  aheadLocally h := h.elim
  total := .inr works_plain
  dropUnreachable span := by
    unfold Lower.dropUnreachable
    cases options.unreachable with
    | error => exact .throw _
    | warn =>
      refine .bind_rel (A := J.Tables) ⟨fun w w' h => .answered h.tables h, fun _ _ _ h => h⟩
        (.inr works_plain) fun s s' hs => ?_
      rw [hs.control]
      refine .modify (fun w w' h => ⟨h.builders, h.tables, ?_⟩) fun _ _ _ h => h
      obtain ⟨new, hnew, hnew'⟩ := h.diagnostics
      exact ⟨_, (congrArg (· ++ _) hnew).trans (List.append_assoc ..),
        (congrArg (· ++ _) hnew').trans (List.append_assoc ..)⟩

end Joint

end Shading
