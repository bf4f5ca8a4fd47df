import Shading.Proofs.Choices

/-! # Paths that do not return

    Whether a body returns on every path is decided by a search of its graph
    from the entry.  The graph may be any: branches may go round in circles or
    to blocks that do not exist.

    Main result: the search finds exactly the blocks at the end of a path, and
    what is reported are exactly the ends at which control runs off the
    function (`return_checks_exact`). -/

namespace Shading.IR.Function

variable {f : Function} {b : BlockId}

/-! ## The blocks that are found -/

theorem isReachable_iff : f.isReachable b = true ↔ b < f.blocks.length ∧ f.Path b := by
  constructor
  · intro h
    refine ⟨?_, path_of_isReachable h⟩
    unfold isReachable reachable at h
    split at h
    · cases h
    · exact List.mem_range.1 (List.mem_filter.1 (List.contains_iff_mem.1 h)).1
  · rintro ⟨hb, hpath⟩
    exact isReachable_of_path_lt hpath hb

theorem mem_reachable : b ∈ f.reachable ↔ b < f.blocks.length ∧ f.Path b := by
  rw [← isReachable_iff, isReachable, List.contains_iff_mem]

/-- The blocks are found in block order, each once. -/
theorem reachable_increasing (f : Function) : f.reachable.Pairwise (· < ·) := by
  unfold reachable
  split
  · exact .nil
  · exact List.pairwise_lt_range.filter _

/-! ## Ends at which control runs off -/

/-- Control gets to a block, and the last instruction of the block, if there
    is one, does not end it. -/
structure RunsOff (f : Function) (b : BlockId) : Prop where
  inside : b < f.blocks.length
  path : f.Path b
  unended : ∀ i x, (f.blockIds b).getLast? = some i → f.inst? i = some x →
    x.op.isTerminator = false

theorem mem_openBlocks : b ∈ f.openBlocks ↔ f.RunsOff b := by
  unfold openBlocks
  rw [List.mem_filter, mem_reachable, Bool.not_eq_true', isTerminated_eq_false]
  constructor
  · rintro ⟨⟨hb, hpath⟩, hend⟩
    exact ⟨hb, hpath, hend⟩
  · rintro ⟨hb, hpath, hend⟩
    exact ⟨⟨hb, hpath⟩, hend⟩

theorem allPathsReturn_iff : f.allPathsReturn = true ↔ f.blocks ≠ [] ∧ ∀ b, ¬ f.RunsOff b := by
  unfold allPathsReturn
  rw [Bool.and_eq_true, Bool.not_eq_true', List.isEmpty_eq_false_iff, List.isEmpty_iff,
    List.eq_nil_iff_forall_not_mem]
  simp only [mem_openBlocks]

/-- Whatever the blocks of a function are and wherever their branches go: a
    block is reachable exactly if it exists and there is a path to it from the
    entry; the open blocks are, in block order and each once, those at which
    control runs off; and all paths return exactly if there is a block and
    control nowhere runs off. -/
theorem return_checks_exact (f : Function) :
    (∀ b, f.isReachable b = true ↔ b < f.blocks.length ∧ f.Path b) ∧
      (f.openBlocks.Pairwise (· < ·) ∧ ∀ b, b ∈ f.openBlocks ↔ f.RunsOff b) ∧
      (f.allPathsReturn = true ↔ f.blocks ≠ [] ∧ ∀ b, ¬ f.RunsOff b) := by
  refine ⟨fun b => isReachable_iff, ⟨?_, fun b => mem_openBlocks⟩, allPathsReturn_iff⟩
  exact f.reachable_increasing.filter _

/-- A branch to a block that does not exist and a block that leads to itself
    leave nothing open, and the last block is not reachable. -/
example :
    let f : Function := ⟨"f", ⟨[.bool], .void⟩, .internal,
      [⟨"entry", [0]⟩, ⟨"spin", [1]⟩, ⟨"dead", []⟩],
      [⟨.condBr (.arg 0) 1 9, .void, none⟩, ⟨.br 1, .void, none⟩]⟩
    f.reachable = [0, 1] ∧ f.openBlocks = [] ∧ f.allPathsReturn = true := by decide

end Shading.IR.Function
