import DynamicValue.Proofs.Broadcast.NodeFault
import DynamicValue.Proofs.Number.Nearest
import DynamicValue.Proofs.Text.Occurrence
import DynamicValue.Value.Membership

/-!
Subtraction of texts. What goes is the leftmost occurrence, then the leftmost one in what stands
behind it, and so on, each one at the place where the text is found in the other; what a removal
brings together is not looked at again.
-/

namespace DynamicValue

namespace Text

section Sequence

variable {α : Type} {needle text rest : List α} {count : Nat}

/-- Removing the needle so many times from a text, from the left. In what stands behind one
occurrence the next one is the leftmost again, and none is left in the end. -/
inductive Removes (needle : List α) : List α → List α → Nat → Prop where
  | absent {text : List α} (h : ¬ needle <:+: text) : Removes needle text text 0
  | leftmost {before after rest : List α} {count : Nat}
      (h : Leftmost needle (before ++ needle ++ after) before.length)
      (tail : Removes needle after rest count) :
      Removes needle (before ++ needle ++ after) (before ++ rest) (count + 1)

/-- Each removal takes off the length of the needle, and nothing else changes the length. -/
theorem Removes.length_eq (h : Removes needle text rest count) :
    text.length = rest.length + count * needle.length := by
  induction h with
  | absent => simp
  | leftmost _ _ ih =>
      simp only [List.length_append, ih, Nat.succ_mul]
      omega

theorem Removes.sublist (h : Removes needle text rest count) : rest.Sublist text := by
  induction h with
  | absent => exact List.Sublist.refl _
  | @leftmost before after rest _ _ _ ih =>
      rw [List.append_assoc]
      exact (List.Sublist.refl before).append (ih.trans (List.sublist_append_right needle after))

/-- What is left does not depend on how it was arrived at, for there is one leftmost occurrence. -/
theorem Removes.unique {rest' : List α} {count' : Nat} (h : Removes needle text rest count)
    (h' : Removes needle text rest' count') : rest' = rest := by
  induction h generalizing rest' count' with
  | absent hAbsent =>
      cases h' with
      | absent => rfl
      | leftmost hLeftmost => exact absurd hLeftmost.isInfix hAbsent
  | @leftmost before after rest count hLeftmost _ ih =>
      generalize hText : before ++ needle ++ after = text at h' hLeftmost
      cases h' with
      | absent hAbsent => exact absurd hLeftmost.isInfix hAbsent
      | @leftmost before' after' rest' _ hLeftmost' tail' =>
          have hLength : before.length = before'.length := hLeftmost.unique hLeftmost'
          obtain ⟨hAhead, rfl⟩ := List.append_inj hText (by simp [hLength])
          obtain ⟨rfl, -⟩ := List.append_inj hAhead hLength
          rw [ih tail']

/-- Nothing goes only where there is nothing to remove. -/
theorem Removes.eq_iff (hNeedle : needle ≠ []) (h : Removes needle text rest count) :
    rest = text ↔ ¬ needle <:+: text := by
  have hLength := h.length_eq
  have hPositive := List.length_pos_iff.mpr hNeedle
  cases h with
  | absent hAbsent => simp [hAbsent]
  | @leftmost before after rest count hLeftmost =>
      refine ⟨fun hSame => ?_, fun hAbsent => absurd hLeftmost.isInfix hAbsent⟩
      have hMore := Nat.le_mul_of_pos_left needle.length (by omega : 0 < count + 1)
      rw [hSame] at hLength
      omega

end Sequence

variable {needle : List Char} {p : Nat}

/-- Skipping some characters is starting behind them. -/
theorem removeFrom_eq_drop (needle : List Char) (skip : Nat) (text : List Char) :
    removeFrom needle skip text = removeFrom needle 0 (text.drop skip) := by
  induction text generalizing skip with
  | nil => simp [removeFrom]
  | cons c text ih =>
      cases skip with
      | zero => rfl
      | succ skip => rw [removeFrom, ih, List.drop_succ_cons]

/-- An occurrence at the start is passed over as a whole. -/
theorem removeFrom_of_isPrefix {text : List Char} (hNeedle : needle ≠ []) (h : needle <+: text) :
    removeFrom needle 0 text = removeFrom needle 0 (text.drop needle.length) := by
  obtain ⟨first, needle, rfl⟩ := List.exists_cons_of_ne_nil hNeedle
  cases text with
  | nil => simp at h
  | cons c text =>
      rw [removeFrom, if_pos (List.isPrefixOf_iff_prefix.mpr h), removeFrom_eq_drop,
        List.length_cons, List.drop_succ_cons, Nat.add_sub_cancel]

theorem removeFrom_of_not_isPrefix {c : Char} {text : List Char} (h : ¬ needle <+: c :: text) :
    removeFrom needle 0 (c :: text) = c :: removeFrom needle 0 text := by
  rw [removeFrom, if_neg (mt List.isPrefixOf_iff_prefix.mp h)]

/-- By induction on what stands ahead of the occurrence, which is passed over one by one. -/
theorem removeFrom_of_leftmost {text : List Char} (hNeedle : needle ≠ [])
    (h : Leftmost needle text p) :
    removeFrom needle 0 text =
      text.take p ++ removeFrom needle 0 (text.drop (p + needle.length)) := by
  induction p generalizing text with
  | zero =>
      have hHere : needle <+: text := h.here
      rw [removeFrom_of_isPrefix hNeedle hHere, List.take_zero, List.nil_append, Nat.zero_add]
  | succ p ih =>
      cases text with
      | nil =>
          have hLength := h.add_length_le
          simp at hLength
      | cons c text =>
          obtain ⟨hHere, hRest⟩ := leftmost_cons_succ_iff.mp h
          rw [removeFrom_of_not_isPrefix hHere, ih hRest, List.take_succ_cons, List.cons_append,
            Nat.succ_add, List.drop_succ_cons]

/-- Where the needle does not occur everything stays. -/
theorem removeFrom_of_not_isInfix {text : List Char} (h : ¬ needle <:+: text) :
    removeFrom needle 0 text = text := by
  induction text with
  | nil => rfl
  | cons c text ih =>
      rw [List.infix_cons_iff, not_or] at h
      rw [removeFrom_of_not_isPrefix h.1, ih h.2]

theorem removeAll_nil (text : List Char) : removeAll [] text = text := rfl

theorem removeAll_of_ne_nil (hNeedle : needle ≠ []) (text : List Char) :
    removeAll needle text = removeFrom needle 0 text := by
  rw [removeAll, if_neg (by simpa using hNeedle)]

/-- The empty needle occurs in every text, and yet removes nothing. -/
theorem removeAll_of_not_isInfix {text : List Char} (h : ¬ needle <:+: text) :
    removeAll needle text = text := by
  by_cases hNeedle : needle = []
  · rw [hNeedle, removeAll_nil]
  · rw [removeAll_of_ne_nil hNeedle, removeFrom_of_not_isInfix h]

/-- Removal takes the leftmost occurrence and goes on behind it. It does not look back, so that what
joins up across the gap is not seen. -/
theorem removeAll_of_leftmost {text : List Char} (hNeedle : needle ≠ [])
    (h : Leftmost needle text p) :
    removeAll needle text = text.take p ++ removeAll needle (text.drop (p + needle.length)) := by
  rw [removeAll_of_ne_nil hNeedle, removeAll_of_ne_nil hNeedle, removeFrom_of_leftmost hNeedle h]

/-- By induction on the length of the text: behind an occurrence there is less of it. -/
theorem exists_removes_removeAll (hNeedle : needle ≠ []) (text : List Char) :
    ∃ count, Removes needle text (removeAll needle text) count := by
  induction hLength : text.length using Nat.strongRecOn generalizing text with
  | ind length ih =>
      by_cases hInfix : needle <:+: text
      · obtain ⟨p, hp⟩ := exists_leftmost hInfix
        have hBound := hp.add_length_le
        have hSome := List.length_pos_iff.mpr hNeedle
        have hLess : (text.drop (p + needle.length)).length < length := by
          rw [List.length_drop]
          omega
        obtain ⟨count, hTail⟩ := ih _ hLess _ rfl
        have hParts := hp.eq_append
        have hTake : (text.take p).length = p := List.length_take_of_le (by omega)
        have hLeftmost : Leftmost needle (text.take p ++ needle ++ text.drop (p + needle.length))
            (text.take p).length := by
          rw [← hParts, hTake]
          exact hp
        have hRemoves := Removes.leftmost hLeftmost hTail
        rw [← hParts, ← removeAll_of_leftmost hNeedle hp] at hRemoves
        exact ⟨count + 1, hRemoves⟩
      · rw [removeAll_of_not_isInfix hInfix]
        exact ⟨0, .absent hInfix⟩

/-- What removing from the left can come to is what is computed, and nothing else. The empty needle
is excluded: it occurs in every text, so that removing it comes to no end. -/
theorem removes_iff {rest text : List Char} (hNeedle : needle ≠ []) :
    (∃ count, Removes needle text rest count) ↔ rest = removeAll needle text := by
  obtain ⟨count, hRemoves⟩ := exists_removes_removeAll hNeedle text
  constructor
  · rintro ⟨_, h⟩
    exact hRemoves.unique h
  · rintro rfl
    exact ⟨count, hRemoves⟩

/-- A text stays as it is just if there is nothing to remove, or the needle is empty. -/
theorem removeAll_eq_self_iff (needle text : List Char) :
    removeAll needle text = text ↔ needle = [] ∨ ¬ needle <:+: text := by
  by_cases hNeedle : needle = []
  · simp [hNeedle, removeAll_nil]
  · obtain ⟨_, hRemoves⟩ := exists_removes_removeAll hNeedle text
    simp [hRemoves.eq_iff hNeedle, hNeedle]

/-- However many occurrences there are, all that goes are whole ones. -/
theorem exists_removeAll_length (needle text : List Char) :
    (removeAll needle text).Sublist text ∧
      ∃ count, text.length = (removeAll needle text).length + count * needle.length := by
  by_cases hNeedle : needle = []
  · rw [hNeedle, removeAll_nil]
    exact ⟨List.Sublist.refl text, 0, by simp⟩
  · obtain ⟨count, hRemoves⟩ := exists_removes_removeAll hNeedle text
    exact ⟨hRemoves.sublist, count, hRemoves.length_eq⟩

end Text

namespace Value

variable {a b : Value}

/-- Subtraction without two numbers never fails: the text of the right value is removed from that of
the left one. -/
theorem subtract_result (hLeaf : a.length? = none) (hNumbers : ¬ a.BothNumbers b) :
    (a.arith .subtract b).result =
      .ok (.text (String.ofList (Text.removeAll b.render.toList a.render.toList))) := by
  rw [arith_of_length?_eq_none .subtract hLeaf, Outcome.ofExcept_result,
    scalar_of_not_bothNumbers .subtract hNumbers]
  rfl

theorem subtract_text_result (s : String) (b : Value) :
    ((Value.text s).arith .subtract b).result =
      .ok (.text (String.ofList (Text.removeAll b.render.toList s.toList))) := by
  apply subtract_result rfl
  rintro ⟨hText, -⟩
  cases hText

end Value

open Text in
/-- Subtracting from a value that is no list works on the texts of the two, unless both are numbers.
If the right text is empty or is not in the left one, then the left one stays as it is. Otherwise
its leftmost occurrence goes, the one whose position is the answer to where the right value is, and
subtraction goes on behind it. These occurrences are all that goes, in whole copies and nothing
between them, and what is left is the only text that removing them from the left can come to. -/
theorem subtraction_removes_occurrences {a b : Value} (hLeaf : a.length? = none)
    (hNumbers : ¬ a.BothNumbers b) :
    let text := a.render
    let needle := b.render
    let found := (Value.text text).memberIndex b
    ∃ r : String, (a.arith .subtract b).result = .ok (.text r) ∧
      ((needle = "" ∨ found = .ok .null) ∧ r = text ∨
        needle ≠ "" ∧ ∃ (p : Number) (before after rest : String), found = .ok (.number p) ∧
          (text.length ≤ Number.exactLimit → p.IsExactly before.length) ∧
          text = before ++ needle ++ after ∧
          Leftmost needle.toList text.toList before.length ∧
          ((Value.text after).arith .subtract b).result = .ok (.text rest) ∧
          r = before ++ rest) ∧
      (needle ≠ "" → ∀ rest : String,
        (∃ count, Removes needle.toList text.toList rest.toList count) ↔ rest = r) ∧
      (r = text ↔ needle = "" ∨ ¬ needle.toList <:+: text.toList) ∧
      r.toList.Sublist text.toList ∧
      ∃ count, text.length = r.length + count * needle.length := by
  intro text needle found
  have hEmpty : needle.toList = [] ↔ needle = "" := String.toList_eq_nil_iff
  obtain ⟨hSublist, count, hLength⟩ := exists_removeAll_length needle.toList text.toList
  refine ⟨String.ofList (removeAll needle.toList text.toList), Value.subtract_result hLeaf hNumbers,
    ?_, ?_, ?_, ?_, count, ?_⟩
  · by_cases hAbsent : needle = "" ∨ ¬ needle.toList <:+: text.toList
    · left
      refine ⟨hAbsent.imp_right Value.memberIndex_text_of_not_isInfix, ?_⟩
      rw [← hEmpty, ← removeAll_eq_self_iff] at hAbsent
      rw [hAbsent, String.ofList_toList]
    · right
      obtain ⟨hNeedle, hInfix⟩ := not_or.mp hAbsent
      obtain ⟨p, hp⟩ := exists_leftmost (Classical.not_not.mp hInfix)
      have hBound := hp.add_length_le
      have hBefore : (text.toList.take p).length = p := List.length_take_of_le (by omega)
      refine ⟨hNeedle, .ofNat p, String.ofList (text.toList.take p),
        String.ofList (text.toList.drop (p + needle.toList.length)), _,
        Value.memberIndex_text_of_leftmost hp, ?_, ?_, ?_, Value.subtract_text_result _ _, ?_⟩
      · intro hExact
        rw [← String.length_toList] at hExact
        rw [String.length_ofList, hBefore]
        exact Number.isExactly_ofNat (by omega)
      · apply String.toList_inj.mp
        simpa using hp.eq_append
      · rw [String.length_ofList, hBefore]
        exact hp
      · rw [removeAll_of_leftmost (mt hEmpty.mp hNeedle) hp, String.ofList_append,
          String.toList_ofList]
  · intro hNeedle rest
    rw [removes_iff (mt hEmpty.mp hNeedle), ← String.toList_inj, String.toList_ofList]
  · rw [← hEmpty, ← removeAll_eq_self_iff, ← String.toList_inj, String.toList_ofList]
  · rw [String.toList_ofList]
    exact hSublist
  · rw [String.length_ofList, ← String.length_toList, ← String.length_toList]
    exact hLength

/-- The text of the empty list goes once. That what is left holds it again is not seen any more. -/
theorem subtraction_removes_occurrences_nested :
    let a : Value := .text "x[[]]y"
    let b : Value := .list []
    a.length? = none ∧ ¬ a.BothNumbers b ∧ (a.arith .subtract b).result = .ok (.text "x[]y") := by
  intro a b
  have hNumbers : ¬ a.BothNumbers b := fun h => by cases h.1
  obtain ⟨r, hResult, _, hRemoves, _⟩ := subtraction_removes_occurrences rfl hNumbers
  have hNeedle : b.render.toList = ['[', ']'] := by decide
  have hText : a.render.toList = ['x', '['] ++ ['[', ']'] ++ [']', 'y'] := by decide
  have hOnce : ∃ count, Text.Removes b.render.toList a.render.toList "x[]y".toList count := by
    rw [hNeedle, hText]
    exact ⟨1, .leftmost (Text.position?_eq_some_iff.mp rfl)
      (.absent (Text.position?_eq_none_iff.mp rfl))⟩
  have hRest : "x[]y" = r := (hRemoves (by decide) "x[]y").mp hOnce
  exact ⟨rfl, hNumbers, hRest ▸ hResult⟩

end DynamicValue
