import DynamicValue.Proofs.Broadcast.Elementwise
import DynamicValue.Proofs.Number.Count
import DynamicValue.Proofs.Text.Occurrence

/-!
Searching a text by its bytes. The bytes of the one text are looked for in those of the other, the
offset where they are found cuts the text, and the characters ahead of the cut are counted. A
character begins with a byte that is not to be found within one, so the bytes of a text stand in
those of another only where its characters do, and the cut is between two characters.
-/

namespace DynamicValue

namespace Text

/-- The bytes of a text, each character by one to four of them. -/
def bytes (s : String) : List UInt8 := s.toByteArray.data.toList

/-- The least number of bytes behind which those of the needle stand in those of the haystack. -/
def byteOffset? (needle haystack : String) : Option Nat :=
  (List.range ((bytes haystack).length + 1)).find? fun offset =>
    (bytes needle).isPrefixOf ((bytes haystack).drop offset)

/-- The part of a text ahead of a byte offset. There is none if the offset is within a character or
past the end. -/
def cut? (s : String) (offset : Nat) : Option String :=
  if h : String.Pos.Raw.IsValid s ⟨offset⟩ then some (s.sliceTo ⟨⟨offset⟩, h⟩).copy else none

/-- How many characters stand ahead of the needle, if it is found, by way of its byte offset. There
is no answer if the haystack cannot be cut there. -/
def countBefore? (needle haystack : String) : Option (Option Nat) :=
  (byteOffset? needle haystack).elim (some none) fun offset =>
    (cut? haystack offset).map fun before => some before.length

section Encoding

variable {s t : String}

theorem bytes_eq (s : String) : bytes s = s.toList.flatMap String.utf8EncodeChar := by
  rw [bytes, ← String.utf8Encode_toList, List.utf8Encode, List.toList_data_toByteArray]

theorem bytes_append (s t : String) : bytes (s ++ t) = bytes s ++ bytes t := by
  rw [bytes_eq, bytes_eq, bytes_eq, String.toList_append, List.flatMap_append]

/-- No byte sequence of a character begins that of another one. -/
theorem bytes_prefix_iff : bytes s <+: bytes t ↔ s.toList <+: t.toList := by
  constructor
  · rintro ⟨rest, hBytes⟩
    apply List.isPrefix_of_utf8Encode_append_eq_utf8Encode rest.toByteArray
    rw [bytes_eq, bytes_eq] at hBytes
    rw [List.utf8Encode, List.utf8Encode, ← List.toByteArray_append, hBytes]
  · rintro ⟨rest, hChars⟩
    refine ⟨rest.flatMap String.utf8EncodeChar, ?_⟩
    rw [bytes_eq, bytes_eq, ← hChars, List.flatMap_append]

/-- A byte that characters begin with stands at the beginning of a character. -/
theorem exists_take_of_isUTF8FirstByte {chars : List Char} {offset : Nat} {byte : UInt8}
    (hByte : (chars.flatMap String.utf8EncodeChar)[offset]? = some byte)
    (hFirst : byte.IsUTF8FirstByte) :
    ∃ p, ((chars.take p).flatMap String.utf8EncodeChar).length = offset := by
  induction chars generalizing offset with
  | nil => simp at hByte
  | cons c chars ih =>
      rw [List.flatMap_cons] at hByte
      by_cases hInside : offset < (String.utf8EncodeChar c).length
      · rw [List.getElem?_append_left hInside, List.getElem?_eq_getElem hInside,
          Option.some.injEq] at hByte
        rw [← hByte, UInt8.isUTF8FirstByte_getElem_utf8EncodeChar] at hFirst
        exact ⟨0, hFirst.symm⟩
      · rw [List.getElem?_append_right (Nat.le_of_not_lt hInside)] at hByte
        obtain ⟨p, hp⟩ := ih hByte
        refine ⟨p + 1, ?_⟩
        rw [List.take_succ_cons, List.flatMap_cons, List.length_append, hp]
        omega

end Encoding

/-- How many bytes the first `p` characters of a text have. -/
def offsetOf (s : String) (p : Nat) : Nat := (bytes (String.ofList (s.toList.take p))).length

section Search

variable {needle haystack : String} {p offset : Nat}

theorem take_append_drop (s : String) (p : Nat) :
    String.ofList (s.toList.take p) ++ String.ofList (s.toList.drop p) = s := by
  rw [← String.ofList_append, List.take_append_drop, String.ofList_toList]

theorem drop_bytes (s : String) (p : Nat) :
    (bytes s).drop (offsetOf s p) = bytes (String.ofList (s.toList.drop p)) := by
  have hParts := bytes_append (String.ofList (s.toList.take p)) (String.ofList (s.toList.drop p))
  rw [take_append_drop] at hParts
  rw [hParts, offsetOf, List.drop_left]

/-- More characters have no fewer bytes. -/
theorem offsetOf_le_offsetOf (s : String) {q : Nat} (h : p ≤ q) : offsetOf s p ≤ offsetOf s q := by
  have hPrefix : (String.ofList (s.toList.take p)).toList <+:
      (String.ofList (s.toList.take q)).toList := by
    rw [String.toList_ofList, String.toList_ofList]
    exact List.take_prefix_take_left h
  exact (bytes_prefix_iff.mpr hPrefix).length_le

/-- The bytes of a text that is not empty stand in those of another one only behind whole
characters, and only where the text itself stands. -/
theorem prefix_drop_bytes_iff (hSome : needle ≠ "") :
    bytes needle <+: (bytes haystack).drop offset ↔
      ∃ p, offsetOf haystack p = offset ∧ needle.toList <+: haystack.toList.drop p := by
  constructor
  · intro h
    obtain ⟨c, rest, hNeedle⟩ := List.exists_cons_of_ne_nil (mt String.toList_eq_nil_iff.mp hSome)
    have hPositive : 0 < (String.utf8EncodeChar c).length :=
      List.length_pos_iff.mpr String.utf8EncodeChar_ne_nil
    have hByte : (haystack.toList.flatMap String.utf8EncodeChar)[offset]? =
        some (String.utf8EncodeChar c)[0] := by
      obtain ⟨behind, hBehind⟩ := h
      have hDrop : ((bytes haystack).drop offset)[0]? = (bytes haystack)[offset]? :=
        List.getElem?_drop
      rw [← hBehind, bytes_eq needle, hNeedle, List.flatMap_cons, List.append_assoc,
        List.getElem?_append_left hPositive, List.getElem?_eq_getElem hPositive] at hDrop
      rw [← bytes_eq, hDrop]
    obtain ⟨p, hp⟩ :=
      exists_take_of_isUTF8FirstByte hByte UInt8.isUTF8FirstByte_getElem_zero_utf8EncodeChar
    have hOffset : offsetOf haystack p = offset := by
      rw [offsetOf, bytes_eq, String.toList_ofList, hp]
    rw [← hOffset, drop_bytes, bytes_prefix_iff, String.toList_ofList] at h
    exact ⟨p, hOffset, h⟩
  · rintro ⟨p, rfl, h⟩
    rw [drop_bytes, bytes_prefix_iff, String.toList_ofList]
    exact h

/-- The first characters have fewer bytes the fewer they are, so that what is leftmost among the
characters is leftmost among the bytes. -/
theorem leftmost_bytes (h : Leftmost needle.toList haystack.toList p) :
    Leftmost (bytes needle) (bytes haystack) (offsetOf haystack p) := by
  by_cases hEmpty : needle = ""
  · subst hEmpty
    rw [leftmost_nil_iff.mp h]
    exact leftmost_nil_iff.mpr rfl
  · refine ⟨(prefix_drop_bytes_iff hEmpty).mpr ⟨p, rfl, h.here⟩, ?_⟩
    intro offset hLess hPrefix
    obtain ⟨q, rfl, hThere⟩ := (prefix_drop_bytes_iff hEmpty).mp hPrefix
    rcases Nat.lt_or_ge q p with hBefore | hBehind
    · exact h.before q hBefore hThere
    · exact absurd (offsetOf_le_offsetOf haystack hBehind) (Nat.not_le_of_lt hLess)

/-- The search by bytes finds the leftmost place among the bytes, which need not be said to lie
between characters. -/
theorem byteOffset?_eq_some_iff :
    byteOffset? needle haystack = some offset ↔
      Leftmost (bytes needle) (bytes haystack) offset := by
  simp only [byteOffset?, List.find?_range_eq_some, List.isPrefixOf_iff_prefix, List.mem_range,
    Bool.not_eq_true', Bool.eq_false_iff, ne_eq]
  constructor
  · rintro ⟨hHere, -, hBefore⟩
    exact ⟨hHere, hBefore⟩
  · intro h
    have hBound := h.add_length_le
    exact ⟨h.here, by omega, h.before⟩

/-- What is not found among the characters is not found among the bytes either. -/
theorem byteOffset?_eq_none (h : ¬ needle.toList <:+: haystack.toList) :
    byteOffset? needle haystack = none := by
  have hSome : needle ≠ "" := by
    rintro rfl
    exact h List.nil_infix
  rw [Option.eq_none_iff_forall_ne_some]
  intro offset hOffset
  have hHere := (byteOffset?_eq_some_iff.mp hOffset).here
  obtain ⟨p, -, hThere⟩ := (prefix_drop_bytes_iff hSome).mp hHere
  exact h (hThere.isInfix.trans (List.drop_suffix p _).isInfix)

/-- Behind its first characters a text can always be cut, and they are what is cut off. -/
theorem cut?_offsetOf (s : String) (p : Nat) :
    cut? s (offsetOf s p) = some (String.ofList (s.toList.take p)) := by
  have hParts := (take_append_drop s p).symm
  have hEnd : (⟨offsetOf s p⟩ : String.Pos.Raw) = (String.ofList (s.toList.take p)).rawEndPos := by
    rfl
  have hValid : String.Pos.Raw.IsValid s ⟨offsetOf s p⟩ :=
    String.Pos.Raw.isValid_iff_exists_append.mpr ⟨_, _, hParts, hEnd⟩
  rw [cut?, dif_pos hValid]
  exact congrArg some (String.Pos.Splits.copy_sliceTo_eq ⟨hParts, hEnd⟩)

/-- Counting the characters ahead of a byte offset comes to the position among the characters. -/
theorem countBefore?_eq (needle haystack : String) :
    countBefore? needle haystack = some (position? needle.toList haystack.toList) := by
  by_cases hInfix : needle.toList <:+: haystack.toList
  · obtain ⟨p, hp⟩ := exists_leftmost hInfix
    have hBound := hp.add_length_le
    rw [countBefore?, byteOffset?_eq_some_iff.mpr (leftmost_bytes hp), Option.elim_some,
      cut?_offsetOf, Option.map_some, String.length_ofList, List.length_take_of_le (by omega),
      position?_eq_some_iff.mpr hp]
  · rw [countBefore?, byteOffset?_eq_none hInfix, position?_eq_none_iff.mpr hInfix]
    rfl

/-- The offset that is found is between two characters, or at an end of the text. -/
theorem isValid_of_byteOffset? (h : byteOffset? needle haystack = some offset) :
    String.Pos.Raw.IsValid haystack ⟨offset⟩ := by
  have hCount := countBefore?_eq needle haystack
  rw [countBefore?, h, Option.elim_some, Option.map_eq_some_iff] at hCount
  obtain ⟨_, hCut, _⟩ := hCount
  unfold cut? at hCut
  split at hCut
  case isTrue hValid => exact hValid
  case isFalse => cases hCut

end Search

end Text

namespace Value

variable {s : String} {v : Value}

/-- The answer is a number just if the text is there, and says how many characters stand ahead of
its leftmost occurrence. -/
theorem memberIndex_text_eq_number_iff (s : String) (v : Value) (x : Number) :
    (Value.text s).memberIndex v = .ok (.number x) ↔
      ∃ p, Text.Leftmost v.render.toList s.toList p ∧ x = .ofNat p := by
  constructor
  · intro h
    cases hPosition : Text.position? v.render.toList s.toList with
    | none =>
        rw [memberIndex_text, hPosition] at h
        cases h
    | some p =>
        rw [memberIndex_text, hPosition] at h
        cases h
        exact ⟨p, Text.position?_eq_some_iff.mp hPosition, rfl⟩
  · rintro ⟨p, hp, rfl⟩
    exact memberIndex_text_of_leftmost hp

/-- The answer is null just if the text stands behind no number of characters. The empty text is
therefore always found. -/
theorem memberIndex_text_eq_null_iff (s : String) (v : Value) :
    (Value.text s).memberIndex v = .ok .null ↔ ∀ p, ¬ v.render.toList <+: s.toList.drop p := by
  constructor
  · intro h p hp
    obtain ⟨q, hq⟩ := Text.exists_leftmost (hp.isInfix.trans (List.drop_suffix p _).isInfix)
    rw [memberIndex_text_of_leftmost hq] at h
    cases h
  · intro hNone
    apply memberIndex_text_of_not_isInfix
    intro hInfix
    obtain ⟨p, hp⟩ := Text.exists_leftmost hInfix
    exact hNone p hp.here

/-- Adding to a text puts the full text of the value behind it, of a list as well, and never
fails. -/
theorem add_text_result (s : String) (v : Value) :
    ((Value.text s).arith .add v).result = .ok (.text (s ++ v.render)) := by
  rw [arith_of_length?_eq_none .add rfl]
  rfl

/-- A text with another one behind it has the other one there, or nearer to its start. -/
theorem exists_leftmost_append (s t : String) :
    ∃ p, Text.Leftmost t.toList (s ++ t).toList p ∧ p ≤ s.length := by
  have hDrop : (s ++ t).toList.drop s.length = t.toList := by
    rw [String.toList_append, ← String.length_toList, List.drop_left]
  have hEnd : t.toList <+: (s ++ t).toList.drop s.length :=
    ⟨[], (List.append_nil t.toList).trans hDrop.symm⟩
  obtain ⟨p, hp⟩ := Text.exists_leftmost (hEnd.isInfix.trans (List.drop_suffix _ _).isInfix)
  exact ⟨p, hp, Nat.le_of_not_lt fun hLess => hp.before s.length hLess hEnd⟩

end Value

open Text in
/-- In a text the position of a value is the least number of characters behind which the value's own
text stands, and null if it stands nowhere. The positions of a text whose length is exact as a
number are exact, and leave room for what was found. Searching by bytes comes to the same, cuts the
text only between characters, and never fails. What has been put behind a text is found in it. -/
theorem membership_leftmost_in_text {s : String} (hLength : s.length ≤ Number.exactLimit)
    (v : Value) :
    let needle := v.render
    let found := (Value.text s).memberIndex v
    (∀ x, found = .ok (.number x) ↔
      ∃ p, Leftmost needle.toList s.toList p ∧ x = .ofNat p) ∧
    (found = .ok .null ↔ ∀ p, ¬ needle.toList <+: s.toList.drop p) ∧
    (∀ p, Leftmost needle.toList s.toList p → (Number.ofNat p).IsExactly p ∧
      ∃ total, (Value.text s).toNumber.IsExactly total ∧ p + needle.length ≤ total) ∧
    (needle = "" → found = .ok (.number .zero)) ∧
    (∀ offset, byteOffset? needle s = some offset → String.Pos.Raw.IsValid s ⟨offset⟩) ∧
    (∃ position, countBefore? needle s = some position ∧ found = .ok (.ofPosition? position)) ∧
    (∃ joined p, ((Value.text s).arith .add v).result = .ok joined ∧
      joined.memberIndex v = .ok (.number (.ofNat p)) ∧ p ≤ s.length) := by
  intro needle found
  refine ⟨Value.memberIndex_text_eq_number_iff s v, Value.memberIndex_text_eq_null_iff s v, ?_, ?_,
    fun offset h => isValid_of_byteOffset? h, ⟨_, countBefore?_eq needle s, rfl⟩, ?_⟩
  · intro p hp
    have hBound := hp.add_length_le
    rw [String.length_toList, String.length_toList] at hBound
    exact ⟨Number.isExactly_ofNat (by omega), s.length, Number.isExactly_ofNat hLength, hBound⟩
  · intro hEmpty
    have hStart : Leftmost needle.toList s.toList 0 := by
      rw [hEmpty]
      exact leftmost_nil_iff.mpr rfl
    have hZero : Number.zero = .ofNat 0 := by decide
    exact (Value.memberIndex_text_eq_number_iff s v _).mpr ⟨0, hStart, hZero⟩
  · obtain ⟨p, hp, hBound⟩ := Value.exists_leftmost_append s v.render
    exact ⟨_, p, Value.add_text_result s v, Value.memberIndex_text_of_leftmost hp, hBound⟩

open Text in
/-- Two characters, of six bytes, stand ahead of the brackets. -/
theorem membership_leftmost_in_text_brackets :
    let s := "é😀[]é"
    s.length ≤ Number.exactLimit ∧ byteOffset? (Value.list []).render s = some 6 ∧
      (Value.text s).memberIndex (.list []) = .ok (.number (.ofNat 2)) ∧
      (Number.ofNat 2).IsExactly 2 ∧ String.Pos.Raw.IsValid s ⟨6⟩ := by
  intro s
  have hLength : s.length ≤ Number.exactLimit := by decide
  have hOffset : byteOffset? (Value.list []).render s = some 6 := by decide
  have hHere : Leftmost (Value.list []).render.toList s.toList 2 :=
    position?_eq_some_iff.mp (by decide)
  obtain ⟨hNumber, -, hExact, -, hValid, -⟩ := membership_leftmost_in_text hLength (.list [])
  exact ⟨hLength, hOffset, (hNumber _).mpr ⟨2, hHere, rfl⟩, (hExact 2 hHere).1, hValid 6 hOffset⟩

end DynamicValue
