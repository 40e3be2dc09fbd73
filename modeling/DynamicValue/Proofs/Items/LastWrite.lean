import DynamicValue.Proofs.Items.Edit

/-!
Runs of edits without deletions, read as sequences of blocks. At each position of the resulting
list stands what the last block over it wrote there, or the old element under no block; so no
element ever moves, and the list ends where the farthest block does.
-/

namespace DynamicValue

namespace Edit

/-- The blocks that a run writes, each at the length that the list has just before. -/
def blocks (items : Items) : List Edit → List Block
  | [] => []
  | edit :: edits => (edit.block? items.length).toList ++ blocks (edit.apply items).items edits

variable {items : Items} {edits : List Edit}

/-- What no block covers is as it was. -/
theorem getElem?_run_of_not_covers (hDelete : ∀ edit ∈ edits, ∀ key, edit ≠ .delete key) {p : Nat}
    (h : ∀ block ∈ blocks items edits, ¬ block.Covers p) : (run items edits)[p]? = items[p]? := by
  induction edits generalizing items with
  | nil => rfl
  | cons edit edits ih =>
      obtain ⟨hEdit, hEdits⟩ := List.forall_mem_cons.mp hDelete
      change (run (edit.apply items).items edits)[p]? = _
      rw [blocks] at h
      cases hBlock : edit.block? items.length with
      | none =>
          rw [hBlock] at h
          rw [ih hEdits h, (apply_of_block?_eq_none hEdit hBlock).1]
      | some block =>
          rw [hBlock] at h
          obtain ⟨hHead, hTail⟩ := List.forall_mem_cons.mp h
          rw [ih hEdits hTail, (apply_of_block?_eq_some hBlock).1,
            Block.getElem?_write_of_not_covers (start_le_of_block? hBlock) hHead]

/-- What a block covers, and no later one, is as the block wrote it. -/
theorem getElem?_run_of_covers (hDelete : ∀ edit ∈ edits, ∀ key, edit ≠ .delete key)
    {before after : List Block} {block : Block} {p : Nat}
    (h : blocks items edits = before ++ block :: after) (hCovers : block.Covers p)
    (hAfter : ∀ later ∈ after, ¬ later.Covers p) :
    (run items edits)[p]? = block.values[p - block.start]? := by
  induction edits generalizing items before with
  | nil => simp [blocks] at h
  | cons edit edits ih =>
      obtain ⟨hEdit, hEdits⟩ := List.forall_mem_cons.mp hDelete
      change (run (edit.apply items).items edits)[p]? = _
      rw [blocks] at h
      cases hBlock : edit.block? items.length with
      | none =>
          rw [hBlock] at h
          exact ih hEdits h
      | some first =>
          rw [hBlock] at h
          rcases List.cons_eq_append_iff.mp h with ⟨_, hLast⟩ | ⟨before, _, hLater⟩
          · cases hLast
            rw [getElem?_run_of_not_covers hEdits hAfter, (apply_of_block?_eq_some hBlock).1,
              Block.getElem?_write_of_covers (start_le_of_block? hBlock) hCovers]
          · exact ih hEdits hLater

/-- No edit but a deletion makes a list shorter. After a run without any it is as long as at the
start, or as the block that reaches farthest makes it. -/
theorem length_run (hDelete : ∀ edit ∈ edits, ∀ key, edit ≠ .delete key) :
    (run items edits).length = ((blocks items edits).map Block.stop).foldl max items.length := by
  induction edits generalizing items with
  | nil => rfl
  | cons edit edits ih =>
      obtain ⟨hEdit, hEdits⟩ := List.forall_mem_cons.mp hDelete
      change (run (edit.apply items).items edits).length = _
      rw [ih hEdits, blocks]
      cases hBlock : edit.block? items.length with
      | none => rw [(apply_of_block?_eq_none hEdit hBlock).1]; rfl
      | some block =>
          rw [(apply_of_block?_eq_some hBlock).1, Block.length_write (start_le_of_block? hBlock)]
          rfl

end Edit

open Edit in
/-- After a run without deletions each position holds what the last block over it wrote there, and
its old element under no block; the length is the largest of the old one and the ends of all
blocks. Between any two moments of the run an element that no block covers stays in its place. The
edits that write no block are those that fail, and they leave the list as it is. -/
theorem run_last_write_wins (items : Items) (edits : List Edit)
    (hDelete : ∀ edit ∈ edits, ∀ key, edit ≠ .delete key) :
    (∀ (before after : List Block) (block : Block) (p : Nat),
      blocks items edits = before ++ block :: after → block.Covers p →
      (∀ later ∈ after, ¬ later.Covers p) →
      (run items edits)[p]? = block.values[p - block.start]?) ∧
    (∀ p : Nat, (∀ block ∈ blocks items edits, ¬ block.Covers p) →
      (run items edits)[p]? = items[p]?) ∧
    (run items edits).length = ((blocks items edits).map Block.stop).foldl max items.length ∧
    (∀ early late : List Edit, edits = early ++ late → ∀ p : Nat,
      (∀ block ∈ blocks (run items early) late, ¬ block.Covers p) →
      (run items edits)[p]? = (run items early)[p]?) ∧
    (∀ (early late : List Edit) (edit : Edit), edits = early ++ edit :: late →
      (edit.block? (run items early).length = none ↔
        ∃ fault, (edit.apply (run items early)).outcome.result = .error fault) ∧
      (edit.block? (run items early).length = none →
        (edit.apply (run items early)).items = run items early)) := by
  refine ⟨?_, ?_, length_run hDelete, ?_, ?_⟩
  · intro before after block p h hCovers hAfter
    exact getElem?_run_of_covers hDelete h hCovers hAfter
  · intro p h
    exact getElem?_run_of_not_covers hDelete h
  · intro early late hSplit p h
    subst hSplit
    rw [run_append]
    exact getElem?_run_of_not_covers (fun edit hMem => hDelete edit (by simp [hMem])) h
  · intro early late edit hSplit
    subst hSplit
    have hEdit := hDelete edit (by simp)
    refine ⟨⟨fun h => (apply_of_block?_eq_none hEdit h).2, ?_⟩,
      fun h => (apply_of_block?_eq_none hEdit h).1⟩
    rintro ⟨fault, hFault⟩
    cases h : edit.block? (run items early).length with
    | none => rfl
    | some block =>
        obtain ⟨answer, hAnswer, _⟩ := (apply_of_block?_eq_some h).2
        rw [hFault] at hAnswer
        cases hAnswer

open Edit in
/-- The list that is appended to two elements leaves itself at position three. The insertion there
covers it and reaches past the end; the replacement of the first element leaves it alone. -/
theorem run_last_write_wins_spill :
    let edits : List Edit := [.append (.list [.text "a"]), .insertAt (-1) [.text "b", .text "c"],
      .put (.number .zero) (.text "d")]
    (∀ edit ∈ edits, ∀ key, edit ≠ .delete key) ∧
      (run [.null, .null] edits)[3]? = some (.text "b") ∧
      (run [.null, .null] edits).length = 5 := by
  intro edits
  have hDelete : ∀ edit ∈ edits, ∀ key, edit ≠ .delete key := by simp [edits]
  obtain ⟨hLast, _, hLength, _⟩ := run_last_write_wins [.null, .null] edits hDelete
  refine ⟨hDelete, ?_, hLength.trans rfl⟩
  exact hLast [⟨2, [.text "a", .list [.text "a"]]⟩] [⟨0, [.text "d"]⟩]
    ⟨3, [.text "b", .text "c"]⟩ 3 rfl ⟨by decide, by decide⟩ (by simp [Block.Covers, Block.stop])

end DynamicValue
