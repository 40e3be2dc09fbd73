import DynamicValue.Value.Membership

/-!
Where one sequence first stands in another. The leftmost occurrence is said of any sequences, since
texts are searched by characters and by bytes; the search by characters finds it, and finds nothing
only where there is no occurrence at all. So does the question where a value is in a text.
-/

namespace DynamicValue

namespace Text

section Sequence

variable {α : Type} {needle haystack : List α} {p q : Nat}

/-- The needle stands in the haystack behind `p` elements, and behind no smaller number of them. -/
structure Leftmost (needle haystack : List α) (p : Nat) : Prop where
  here : needle <+: haystack.drop p
  before : ∀ q < p, ¬ needle <+: haystack.drop q

theorem Leftmost.unique (hp : Leftmost needle haystack p) (hq : Leftmost needle haystack q) :
    p = q := by
  rcases Nat.lt_trichotomy p q with hLess | rfl | hMore
  · exact absurd hp.here (hq.before p hLess)
  · rfl
  · exact absurd hq.here (hp.before q hMore)

/-- The empty needle stands at the start. -/
theorem leftmost_nil_iff : Leftmost [] haystack p ↔ p = 0 := by
  constructor
  · intro h
    by_cases hStart : p = 0
    · exact hStart
    · exact absurd List.nil_prefix (h.before 0 (Nat.pos_of_ne_zero hStart))
  · rintro rfl
    exact ⟨List.nil_prefix, fun q hq => absurd hq (Nat.not_lt_zero q)⟩

/-- An occurrence ends where the haystack does, or ahead of it. -/
theorem Leftmost.add_length_le (h : Leftmost needle haystack p) :
    p + needle.length ≤ haystack.length := by
  have hLength := h.here.length_le
  rw [List.length_drop] at hLength
  by_cases hEmpty : needle = []
  · subst hEmpty
    rw [leftmost_nil_iff.mp h]
    exact Nat.zero_le _
  · have hSome := List.length_pos_iff.mpr hEmpty
    omega

/-- The haystack is what stands ahead of the occurrence, the needle, and what stands behind it. -/
theorem Leftmost.eq_append (h : Leftmost needle haystack p) :
    haystack = haystack.take p ++ needle ++ haystack.drop (p + needle.length) := by
  have hRest := List.prefix_iff_eq_append.mp h.here
  rw [List.drop_drop] at hRest
  rw [List.append_assoc, hRest, List.take_append_drop]

theorem leftmost_cons_zero_iff {c : α} :
    Leftmost needle (c :: haystack) 0 ↔ needle <+: c :: haystack :=
  ⟨fun h => h.here, fun h => ⟨h, fun q hq => absurd hq (Nat.not_lt_zero q)⟩⟩

/-- Away from the start, the leftmost occurrence is that of what stands behind the first element. -/
theorem leftmost_cons_succ_iff {c : α} :
    Leftmost needle (c :: haystack) (p + 1) ↔
      ¬ needle <+: c :: haystack ∧ Leftmost needle haystack p := by
  constructor
  · intro h
    exact ⟨h.before 0 (Nat.succ_pos p), h.here, fun q hq => h.before (q + 1) (Nat.succ_lt_succ hq)⟩
  · rintro ⟨hHere, h⟩
    refine ⟨h.here, ?_⟩
    intro q hq
    cases q with
    | zero => exact hHere
    | succ q => exact h.before q (Nat.lt_of_succ_lt_succ hq)

/-- Where there is an occurrence, there is a leftmost one. -/
theorem exists_leftmost (h : needle <:+: haystack) : ∃ p, Leftmost needle haystack p := by
  induction haystack with
  | nil =>
      rw [List.eq_nil_of_infix_nil h]
      exact ⟨0, leftmost_nil_iff.mpr rfl⟩
  | cons c haystack ih =>
      by_cases hHere : needle <+: c :: haystack
      · exact ⟨0, leftmost_cons_zero_iff.mpr hHere⟩
      · obtain ⟨p, hp⟩ := ih ((List.infix_cons_iff.mp h).resolve_left hHere)
        exact ⟨p + 1, leftmost_cons_succ_iff.mpr ⟨hHere, hp⟩⟩

theorem Leftmost.isInfix (h : Leftmost needle haystack p) : needle <:+: haystack :=
  h.here.isInfix.trans (List.drop_suffix p haystack).isInfix

end Sequence

variable {needle haystack : List Char} {p : Nat}

/-- By induction on the haystack. What is found is counted from where the haystack begins. -/
theorem positionFrom?_eq_some_iff (needle haystack : List Char) (start n : Nat) :
    positionFrom? needle start haystack = some n ↔
      ∃ p, n = start + p ∧ Leftmost needle haystack p := by
  induction haystack generalizing start with
  | nil =>
      rw [positionFrom?]
      cases needle with
      | nil => simp [leftmost_nil_iff, eq_comm]
      | cons c needle =>
          simp only [List.isEmpty_cons, Bool.false_eq_true, if_false, reduceCtorEq, false_iff]
          rintro ⟨p, -, h⟩
          simpa using h.add_length_le
  | cons c haystack ih =>
      rw [positionFrom?]
      by_cases hHere : needle <+: c :: haystack
      · rw [if_pos (List.isPrefixOf_iff_prefix.mpr hHere), Option.some.injEq]
        constructor
        · rintro rfl
          exact ⟨0, rfl, leftmost_cons_zero_iff.mpr hHere⟩
        · rintro ⟨p, rfl, h⟩
          rw [h.unique (leftmost_cons_zero_iff.mpr hHere)]
          rfl
      · rw [if_neg (mt List.isPrefixOf_iff_prefix.mp hHere), ih]
        constructor
        · rintro ⟨p, rfl, h⟩
          exact ⟨p + 1, by omega, leftmost_cons_succ_iff.mpr ⟨hHere, h⟩⟩
        · rintro ⟨p, rfl, h⟩
          cases p with
          | zero => exact absurd h.here hHere
          | succ p => exact ⟨p, by omega, (leftmost_cons_succ_iff.mp h).2⟩

theorem position?_eq_some_iff :
    position? needle haystack = some p ↔ Leftmost needle haystack p := by
  rw [position?, positionFrom?_eq_some_iff]
  simp

/-- The search finds nothing just where the needle stands nowhere. -/
theorem position?_eq_none_iff : position? needle haystack = none ↔ ¬ needle <:+: haystack := by
  constructor
  · intro hNone hInfix
    obtain ⟨p, hp⟩ := exists_leftmost hInfix
    rw [position?_eq_some_iff.mpr hp] at hNone
    cases hNone
  · intro hAbsent
    rw [Option.eq_none_iff_forall_ne_some]
    intro p hp
    exact hAbsent (position?_eq_some_iff.mp hp).isInfix

end Text

namespace Value

variable {s : String} {v : Value}

/-- In a text the value's own text is looked for. -/
theorem memberIndex_text (s : String) (v : Value) :
    (Value.text s).memberIndex v =
      .ok (.ofPosition? (Text.position? v.render.toList s.toList)) := rfl

theorem memberIndex_text_of_leftmost {p : Nat} (h : Text.Leftmost v.render.toList s.toList p) :
    (Value.text s).memberIndex v = .ok (.number (.ofNat p)) := by
  rw [memberIndex_text, Text.position?_eq_some_iff.mpr h]
  rfl

/-- What does not occur in a text is answered with null, which is no fault. -/
theorem memberIndex_text_of_not_isInfix (h : ¬ v.render.toList <:+: s.toList) :
    (Value.text s).memberIndex v = .ok .null := by
  rw [memberIndex_text, Text.position?_eq_none_iff.mpr h]
  rfl

end Value

end DynamicValue
