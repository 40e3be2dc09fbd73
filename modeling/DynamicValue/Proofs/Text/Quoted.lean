import DynamicValue.Text.Quoted

/-!
Reading a quoted text back. The first character of the text can be read off what is written for it,
whatever follows, and nothing that is written for a character begins with a quote. So the closing
quote is found without counting, and the text between the quotes is determined.
-/

namespace DynamicValue

namespace Text

/-- The value of a hexadecimal digit in small letters. -/
def hexValue (c : Char) : Nat := if c.isDigit then c.toNat - '0'.toNat else c.toNat - 'a'.toNat + 10

def ofHexDigits (digits : List Char) : Nat := digits.foldl (fun n c => 16 * n + hexValue c) 0

/-- The character at the front of an escaped text, and what follows it. -/
def unescape? : List Char → Option (Char × List Char)
  | '\\' :: '0' :: rest => some ('\x00', rest)
  | '\\' :: 't' :: rest => some ('\t', rest)
  | '\\' :: 'r' :: rest => some ('\r', rest)
  | '\\' :: 'n' :: rest => some ('\n', rest)
  | '\\' :: '"' :: rest => some ('"', rest)
  | '\\' :: '\\' :: rest => some ('\\', rest)
  | '\\' :: 'u' :: '\x7b' :: rest =>
    some (Char.ofNat (ofHexDigits (rest.takeWhile (· != '\x7d'))),
      (rest.dropWhile (· != '\x7d')).drop 1)
  | '\\' :: _ => none
  | '"' :: _ => none
  | c :: rest => some (c, rest)
  | [] => none

theorem hexValue_digitChar {n : Nat} (h : n < 16) : hexValue n.digitChar = n := by
  have hEach : ∀ n < 16, hexValue n.digitChar = n := by decide
  exact hEach n h

/-- Hexadecimal digits are read as the number that they were written for. -/
theorem ofHexDigits_toDigits (n : Nat) : ofHexDigits (Nat.toDigits 16 n) = n := by
  induction n using Nat.strongRecOn with
  | ind n ih =>
      by_cases hSmall : n < 16
      · rw [Nat.toDigits_of_lt_base hSmall]
        simp [ofHexDigits, hexValue_digitChar hSmall]
      · have hRest : n / 16 < n := by omega
        have hLast : n % 16 < 16 := Nat.mod_lt n (by decide)
        rw [Nat.toDigits_of_base_le (by decide) (Nat.le_of_not_lt hSmall), ofHexDigits,
          List.foldl_append, ← ofHexDigits, ih (n / 16) hRest]
        simp only [List.foldl_cons, List.foldl_nil, hexValue_digitChar hLast]
        omega

/-- A hexadecimal digit is neither the brace behind the digits nor a line break. -/
theorem ne_of_mem_toDigits {n : Nat} {c : Char} (h : c ∈ Nat.toDigits 16 n) :
    c ≠ '\x7d' ∧ c ≠ '\n' := by
  have hEach : ∀ digit < 16, digit.digitChar ≠ '\x7d' ∧ digit.digitChar ≠ '\n' := by decide
  induction n using Nat.strongRecOn with
  | ind n ih =>
      by_cases hSmall : n < 16
      · rw [Nat.toDigits_of_lt_base hSmall, List.mem_singleton] at h
        rw [h]
        exact hEach n hSmall
      · rw [Nat.toDigits_of_base_le (by decide) (Nat.le_of_not_lt hSmall), List.mem_append,
          List.mem_singleton] at h
        rcases h with hRest | hLast
        · exact ih (n / 16) (by omega) hRest
        · rw [hLast]
          exact hEach (n % 16) (Nat.mod_lt n (by decide))

/-- An escaped code point is read up to its brace, and what follows is left alone. -/
theorem unescape?_codePoint (c : Char) (rest : List Char) :
    unescape? (['\\', 'u', '\x7b'] ++ Nat.toDigits 16 c.toNat ++ ['\x7d'] ++ rest) =
      some (c, rest) := by
  have hDigits : ∀ d ∈ Nat.toDigits 16 c.toNat, (d != '\x7d') = true := by
    intro d hMem
    exact bne_iff_ne.mpr (ne_of_mem_toDigits hMem).1
  simp only [List.append_assoc, List.cons_append, List.nil_append, unescape?,
    List.takeWhile_append_of_pos hDigits, List.dropWhile_append_of_pos hDigits]
  simp [ofHexDigits_toDigits]

/-- What is written for a character determines it, whatever follows. -/
theorem unescape?_escape (c : Char) (rest : List Char) :
    unescape? (escape c ++ rest) = some (c, rest) := by
  unfold escape
  split
  case h_7 hNul hTab hReturn hBreak hQuote hBackslash =>
    split
    · unfold unescape?
      split <;> simp_all
    · exact unescape?_codePoint c rest
  all_goals rfl

/-- Nothing that is written for a character breaks the line. -/
theorem not_mem_escape (c : Char) : '\n' ∉ escape c := by
  unfold escape
  split
  case h_7 hNul hTab hReturn hBreak hQuote hBackslash =>
    split
    · simpa using Ne.symm hBreak
    · intro hMem
      simp only [List.mem_append, List.mem_cons, List.not_mem_nil, or_false] at hMem
      rcases hMem with (hStart | hDigit) | hEnd
      · revert hStart
        decide
      · exact (ne_of_mem_toDigits hDigit).2 rfl
      · cases hEnd
  all_goals decide

/-- An escaped text ends where the closing quote stands, and no other text is escaped like it. -/
theorem flatMap_escape_inj {s t rest rest' : List Char}
    (h : s.flatMap escape ++ '"' :: rest = t.flatMap escape ++ '"' :: rest') :
    s = t ∧ rest = rest' := by
  induction s generalizing t with
  | nil => cases t with
    | nil =>
        cases h
        exact ⟨rfl, rfl⟩
    | cons d t =>
        have hRead := congrArg unescape? h
        rw [List.flatMap_cons, List.append_assoc, unescape?_escape] at hRead
        cases hRead
  | cons c s ih => cases t with
    | nil =>
        have hRead := congrArg unescape? h
        rw [List.flatMap_cons, List.append_assoc, unescape?_escape] at hRead
        cases hRead
    | cons d t =>
        have hRead := congrArg unescape? h
        rw [List.flatMap_cons, List.append_assoc, unescape?_escape, List.flatMap_cons,
          List.append_assoc, unescape?_escape] at hRead
        obtain ⟨rfl, hTail⟩ := Prod.mk.inj (Option.some.inj hRead)
        obtain ⟨rfl, hRest⟩ := ih hTail
        exact ⟨rfl, hRest⟩

/-- A quoted text determines the text and where it ends, whatever follows. -/
theorem quote_append_inj {s t : String} {rest rest' : List Char}
    (h : (quote s).toList ++ rest = (quote t).toList ++ rest') : s = t ∧ rest = rest' := by
  simp only [quote, String.toList_ofList, List.cons_append, List.append_assoc, List.nil_append,
    List.cons.injEq, true_and] at h
  obtain ⟨hText, hRest⟩ := flatMap_escape_inj h
  exact ⟨String.toList_inj.mp hText, hRest⟩

/-- A quoted text stays on one line, since line breaks are escaped in it. -/
theorem not_mem_quote (s : String) : '\n' ∉ (quote s).toList := by
  simp only [quote, String.toList_ofList, List.mem_append, List.mem_cons, List.mem_flatMap]
  rintro ((hOpen | ⟨c, _, hMem⟩) | hClose | hNone)
  · cases hOpen
  · exact not_mem_escape c hMem
  · cases hClose
  · cases hNone

end Text

end DynamicValue
