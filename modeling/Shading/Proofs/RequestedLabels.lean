import Shading.Proofs.Labels
import Shading.Proofs.Mangling
import Shading.Proofs.Operations

/-! # Labels that are asked for

    A block can be asked for under any label.  It gets that label, or that
    label and the number of those that use it already.  So the labels of a
    function follow from the requests and their order alone, whatever else is
    done with the builder (`Builder.HasLabels.performAll`).

    Numbered labels are not kept apart from requested ones.  A label is given
    twice exactly if a number makes one that was itself requested before, as
    `a.1` for the second of the requests `a.1` and `a`
    (`labels_distinct_iff_no_request_clashes`). -/

namespace Shading.IR

namespace Build

/-! ## Numbers in labels -/

/-- A number is written without a dot. -/
theorem dot_notMem_repr (n : Nat) : '.' ∉ n.repr.toList := by
  rw [Nat.repr_eq_ofList_toDigits, String.toList_ofList]
  intro hmem
  have hdigit := Nat.isDigit_of_mem_toDigits (by decide) (by decide) hmem
  exact absurd hdigit (by decide)

/-- A numbered label tells its base and its number, whatever dots the base has. -/
theorem numbered_succ_inj {a b : String} {m n : Nat}
    (h : numbered a (m + 1) = numbered b (n + 1)) : a = b ∧ m = n := by
  have hsplit :
      a.toList ++ '.' :: (m + 1).repr.toList = b.toList ++ '.' :: (n + 1).repr.toList := by
    simpa [numbered] using congrArg String.toList h
  obtain rfl : a = b :=
    String.toList_inj.1 (append_cons_inj (dot_notMem_repr _) (dot_notMem_repr _) hsplit).1
  exact ⟨rfl, Nat.succ.inj (numbered_injective h)⟩

/-! ## Requests and labels -/

/-- The label that the next block of a base gets. -/
def labelFor (labelList : List String) (base : String) : String :=
  numbered base (labelList.countP (labelUses base))

/-- One more request. -/
def give (labelList : List String) (base : String) : List String :=
  labelList ++ [labelFor labelList base]

/-- The labels that requests get, one after the other. -/
def given (requests : List String) : List String := requests.foldl give []

theorem newLabel_eq_labelFor (blocks : List Block) (base : String) :
    newLabel blocks base = labelFor (blocks.map (·.label)) base := by
  rw [newLabel_eq, labelFor, List.countP_map]
  rfl

theorem given_concat (requests : List String) (base : String) :
    given (requests ++ [base]) = given requests ++ [labelFor (given requests) base] :=
  List.foldl_append

/-- A number is given once, so a numbered label that is there was requested as
    it is or will not be given again. -/
theorem numbered_mem_given {requests : List String} {base : String} {n : Nat}
    (h : numbered base (n + 1) ∈ given requests) :
    numbered base (n + 1) ∈ requests ∨
      n + 1 < (given requests).countP (labelUses base) := by
  induction requests using List.reverseRecOn with
  | nil => cases h
  | append_singleton requests request ih =>
    rw [given_concat] at h ⊢
    rcases List.mem_append.1 h with hearlier | hlast
    · rcases ih hearlier with hrequested | hlt
      · exact .inl (List.mem_append_left _ hrequested)
      · rw [List.countP_append]
        exact .inr (Nat.lt_add_right _ hlt)
    · have hlabel := List.mem_singleton.1 hlast
      unfold labelFor at hlabel
      cases hcount : (given requests).countP (labelUses request) with
      | zero =>
        rw [hcount] at hlabel
        exact .inl (List.mem_append_right _ (List.mem_singleton.2 hlabel))
      | succ k =>
        -- The label was numbered for this very base, and it counts itself from now on.
        rw [hcount] at hlabel
        obtain ⟨rfl, rfl⟩ := numbered_succ_inj hlabel
        rw [List.countP_append, hcount, labelFor, hcount, List.countP_singleton,
          labelUses_numbered_self]
        exact .inr (Nat.lt_succ_self _)

/-- A base of which there are labels gets a number. -/
theorem exists_labelFor_eq_numbered {labelList : List String} {base : String}
    (h : labelFor labelList base ∈ labelList) :
    ∃ n, labelList.countP (labelUses base) = n + 1 ∧
      labelFor labelList base = numbered base (n + 1) := by
  unfold labelFor at h ⊢
  cases hcount : labelList.countP (labelUses base) with
  | zero =>
    rw [hcount] at h
    exact absurd (labelUses_numbered_self base 0) (List.countP_eq_zero.1 hcount _ h)
  | succ n => exact ⟨n, rfl, rfl⟩

/-- The label that a base gets behind other requests was requested before, and
    it was given. -/
def Clashes (earlier : List String) (base : String) : Prop :=
  labelFor (given earlier) base ∈ earlier ∧ labelFor (given earlier) base ∈ given earlier

instance (earlier : List String) (base : String) : Decidable (Clashes earlier base) :=
  inferInstanceAs (Decidable (_ ∧ _))

/-- A label is given again only if it was requested. -/
theorem clashes_iff {earlier : List String} {base : String} :
    Clashes earlier base ↔ labelFor (given earlier) base ∈ given earlier := by
  constructor
  · intro h
    exact h.2
  · intro h
    obtain ⟨n, hcount, hlabel⟩ := exists_labelFor_eq_numbered h
    refine ⟨?_, h⟩
    rw [hlabel] at h ⊢
    rcases numbered_mem_given h with hrequested | hlt
    · exact hrequested
    · rw [hcount] at hlt
      exact absurd hlt (Nat.lt_irrefl _)

/-- Labels are distinct exactly if no request clashes with those before it. -/
theorem given_nodup_iff (requests : List String) :
    (given requests).Nodup ↔
      ∀ earlier base, earlier ++ [base] <+: requests → ¬ Clashes earlier base := by
  -- By induction from the back: only the last request can clash with all the others.
  induction requests using List.reverseRecOn with
  | nil =>
    refine ⟨fun _ earlier base hpre => ?_, fun _ => List.nodup_nil⟩
    exact absurd (List.prefix_nil.1 hpre) (by simp)
  | append_singleton requests request ih =>
    have hnew : (given (requests ++ [request])).Nodup ↔
        (given requests).Nodup ∧ ¬ Clashes requests request := by
      rw [given_concat, ← List.concat_eq_append, List.nodup_concat, clashes_iff, and_comm]
    rw [hnew, ih]
    constructor
    · rintro ⟨hold, hlast⟩ earlier base hpre
      rcases List.prefix_concat_iff.1 hpre with heq | hpre
      · obtain ⟨rfl, hbase⟩ := List.append_inj' heq rfl
        rw [List.singleton_inj.1 hbase]
        exact hlast
      · exact hold earlier base hpre
    · intro h
      refine ⟨fun earlier base hpre => ?_, h requests request List.prefix_rfl⟩
      exact h earlier base (hpre.trans (List.prefix_append _ _))

/-- Requests of which none is another one with a number do not clash. -/
theorem given_nodup {requests : List String}
    (h : ∀ a ∈ requests, ∀ base ∈ requests, ∀ n, a ≠ numbered base (n + 1)) :
    (given requests).Nodup := by
  apply (given_nodup_iff requests).2
  rintro earlier base hpre ⟨hrequested, hgiven⟩
  obtain ⟨n, -, hlabel⟩ := exists_labelFor_eq_numbered hgiven
  have hearlier := hpre.subset (List.mem_append_left _ hrequested)
  have hbase := hpre.subset (List.mem_append_right _ (List.mem_singleton_self base))
  exact h _ hearlier base hbase n hlabel

end Build

/-! ## Labels while a builder is used -/

/-- The label that an operation requests in a function. -/
def Operation.requests (id : FuncId) : Operation → List String
  | appendBlock func label => if func = id then [label] else []
  | _ => []

/-- The labels that are requested in a function, in their order. -/
def requested (id : FuncId) (os : List Operation) : List String :=
  os.flatMap (Operation.requests id)

theorem Operation.eq_appendBlock_of_requests {id : FuncId} {o : Operation}
    (h : o.requests id ≠ []) : ∃ base, o = .appendBlock id base := by
  cases o with
  | appendBlock func base =>
    by_cases hid : func = id
    · exact ⟨base, by rw [hid]⟩
    · exact absurd (if_neg hid) h
  | _ => exact absurd rfl h

/-- A function has the labels that are listed. -/
def Builder.HasLabels (b : Builder) (id : FuncId) (labelList : List String) : Prop :=
  ∃ f, b.module.function? id = some f ∧ f.blocks.map (·.label) = labelList

namespace Builder

variable {b : Builder} {id : FuncId} {labelList : List String}

/-- A block that is asked for in a function that is there is appended. -/
theorem perform_appendBlock {f : Function} (hf : b.module.function? id = some f) (base : String) :
    b.perform (.appendBlock id base) =
      { b with module := b.module.update id (·.addBlock (Build.newLabel f.blocks base)) } := by
  have hfunction : (Build.function id).run b = (.ok f, b) := Build.function_run_eq_ok.2 ⟨hf, rfl⟩
  unfold perform
  show ((Build.appendBlock id base >>= fun _ => pure ()).run b).2 = _
  unfold Build.appendBlock
  rw [bind_assoc, Act.run_bind, hfunction]
  rfl

/-- An operation that requests no label in a function, and does not drop its
    body, leaves its labels. -/
theorem HasLabels.perform_quiet (h : b.HasLabels id labelList) {o : Operation}
    (hquiet : o.requests id = []) (ho : o ≠ .clearBody id) :
    (b.perform o).HasLabels id labelList := by
  refine Has.perform (R := fun f => f.blocks.map (·.label) = labelList) h ho ?_ ?_ ?_
  · rintro f base rfl
    simp [Operation.requests] at hquiet
  · intro f block i hlabels
    exact (Build.labels_modify f.blocks _ _).trans hlabels
  · intro f i hlabels
    exact (Build.labels_modify f.blocks _ _).trans hlabels

/-- A request is answered with the next label of its base. -/
theorem HasLabels.perform_appendBlock (h : b.HasLabels id labelList) (base : String) :
    (b.perform (.appendBlock id base)).HasLabels id (Build.give labelList base) := by
  obtain ⟨f, hf, rfl⟩ := h
  rw [Builder.perform_appendBlock hf, Build.newLabel_eq_labelFor]
  exact ⟨_, Module.update_function?_eq hf rfl, List.map_append⟩

theorem HasLabels.perform (h : b.HasLabels id labelList) {o : Operation}
    (ho : o ≠ .clearBody id) :
    (b.perform o).HasLabels id ((o.requests id).foldl Build.give labelList) := by
  by_cases hquiet : o.requests id = []
  · rw [hquiet]
    exact h.perform_quiet hquiet ho
  · obtain ⟨base, rfl⟩ := Operation.eq_appendBlock_of_requests hquiet
    rw [show (Operation.appendBlock id base).requests id = [base] from if_pos rfl]
    exact h.perform_appendBlock base

/-- What else is done with the builder does not matter. -/
theorem HasLabels.performAll (h : b.HasLabels id labelList) {os : List Operation}
    (hos : .clearBody id ∉ os) : (b.performAll os).HasLabels id
      ((requested id os).foldl Build.give labelList) := by
  unfold requested
  induction os generalizing b labelList with
  | nil => exact h
  | cons o os ih =>
    have hhead : o ≠ .clearBody id := fun ho => hos (ho ▸ List.mem_cons_self)
    rw [List.flatMap_cons, List.foldl_append]
    exact ih (h.perform hhead) fun hmem => hos (List.mem_cons_of_mem _ hmem)

end Builder

/-- Let a function without blocks be given, and any operations that do not
    drop its body.  The function then has the labels that its requests get,
    one after the other.  They are distinct exactly if no request is numbered
    to a label that was itself requested before and given, and so they are if
    no request is another one with a number. -/
theorem labels_distinct_iff_no_request_clashes (b : Builder) {id : FuncId} {f : Function}
    (hf : b.module.function? id = some f) (hblocks : f.blocks = []) {os : List Operation}
    (hos : .clearBody id ∉ os) :
    ∃ g, (b.performAll os).module.function? id = some g ∧
      g.blocks.map (·.label) = Build.given (requested id os) ∧
      ((g.blocks.map (·.label)).Nodup ↔
        ∀ earlier base, earlier ++ [base] <+: requested id os → ¬ Build.Clashes earlier base) ∧
      ((∀ a ∈ requested id os, ∀ base ∈ requested id os, ∀ n, a ≠ Build.numbered base (n + 1)) →
        (g.blocks.map (·.label)).Nodup) := by
  have hstart : b.HasLabels id [] := ⟨f, hf, by rw [hblocks, List.map_nil]⟩
  obtain ⟨g, hg, hlabels⟩ := hstart.performAll hos
  refine ⟨g, hg, hlabels, ?_, fun h => ?_⟩
  · rw [hlabels]
    exact Build.given_nodup_iff _
  · rw [hlabels]
    exact Build.given_nodup h

/-- Labels that contain one another, requested in turn, with other operations
    in between. -/
def crowded : List Operation :=
  [.appendBlock 0 "a", .appendBlock 0 "a.b", .moveTo 0 0, .appendBlock 0 "a",
    .declare "g" ⟨[], .void⟩ .internal, .appendBlock 1 "a", .br 1, .clearBody 1,
    .appendBlock 0 "a.2.z", .appendBlock 0 "a.b", .appendBlock 0 "a"]

theorem crowded_labels_distinct :
    let b := (Builder.start (.empty "m")).perform (.declare "f" ⟨[], .void⟩ .internal)
    ∃ g, (b.performAll crowded).module.function? 0 = some g ∧
      g.blocks.map (·.label) = ["a", "a.b", "a.2", "a.2.z", "a.b.1", "a.5"] ∧
      (g.blocks.map (·.label)).Nodup ∧
      ∀ earlier base, earlier ++ [base] <+: ["a", "a.b", "a", "a.2.z", "a.b", "a"] →
        ¬ Build.Clashes earlier base := by
  intro b
  obtain ⟨f, hf, hblocks⟩ : ∃ f, b.module.function? 0 = some f ∧ f.blocks = [] := ⟨_, rfl, rfl⟩
  have hos : .clearBody 0 ∉ crowded := by decide
  obtain ⟨g, hg, hlabels, hnodup, -⟩ := labels_distinct_iff_no_request_clashes b hf hblocks hos
  have hgiven : Build.given (requested 0 crowded) =
      ["a", "a.b", "a.2", "a.2.z", "a.b.1", "a.5"] := by decide +kernel
  have hdistinct : (g.blocks.map (·.label)).Nodup := by
    rw [hlabels, hgiven]
    decide
  exact ⟨g, hg, hlabels.trans hgiven, hdistinct, hnodup.1 hdistinct⟩

/-- A label with a number is requested before its base. -/
def clashing : List Operation :=
  [.declare "f" ⟨[], .void⟩ .internal, .appendBlock 0 "a.1", .appendBlock 0 "a"]

/-- Both blocks have got the same label. -/
theorem clashing_labels_coincide :
    Build.Clashes ["a.1"] "a" ∧
      (((Builder.start (.empty "m")).performAll clashing).module.function? 0).map
        (fun f => f.blocks.map (·.label)) = some ["a.1", "a.1"] := by
  decide +kernel

end Shading.IR
