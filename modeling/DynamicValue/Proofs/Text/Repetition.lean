import DynamicValue.Proofs.Broadcast.NodeFault
import DynamicValue.Proofs.Items.Machine

/-!
Texts times numbers. The number of copies is the exact value of the number, as long as the result
has at most the greatest number of bytes, and nothing else is refused for its length. Truncation
brings the number of copies into the 64-bit range, which is never seen: a text that is not empty is
then too long, with the number as it is and as it has been truncated to.
-/

namespace DynamicValue

namespace Text

variable (s : String)

/-- The empty text is no exception to the rule for the others. -/
theorem repeated_eq_join (count : Nat) : repeated s count = String.join (List.replicate count s) := by
  rw [repeated]
  split
  case isFalse => rfl
  case isTrue hEmpty =>
    rw [String.isEmpty_iff] at hEmpty
    subst hEmpty
    induction count with
    | zero => rfl
    | succ count ih => rw [List.replicate_succ, String.join_cons, ← ih, String.append_empty]

theorem repeated_succ (count : Nat) : repeated s (count + 1) = s ++ repeated s count := by
  rw [repeated_eq_join, repeated_eq_join, List.replicate_succ, String.join_cons]

theorem repeated_add (m n : Nat) : repeated s (m + n) = repeated s m ++ repeated s n := by
  simp only [repeated_eq_join, ← List.replicate_append_replicate, String.join_append]

/-- The bytes of a repetition are those of the text, as often as it is written. -/
theorem utf8ByteSize_repeated (count : Nat) :
    (repeated s count).utf8ByteSize = s.utf8ByteSize * count := by
  induction count with
  | zero =>
      rw [repeated_eq_join]
      rfl
  | succ count ih =>
      rw [repeated_succ, String.utf8ByteSize_append, ih, Nat.mul_succ, Nat.add_comm]

theorem repeated_of_utf8ByteSize_eq_zero (h : s.utf8ByteSize = 0) (count : Nat) :
    repeated s count = "" := by
  rw [repeated, if_pos]
  rw [String.isEmpty_iff, ← String.utf8ByteSize_eq_zero_iff, h]

/-- Where the repetition is short enough, the number of copies is below the bound at which
truncation stops, or it does not matter. -/
theorem repeated_truncate {x : Number} (hCount : x.IsCount)
    (h : s.utf8ByteSize * x.count ≤ maxBytes) :
    repeated s x.truncate.toNat = repeated s x.count := by
  by_cases hEmpty : s.utf8ByteSize = 0
  · rw [repeated_of_utf8ByteSize_eq_zero s hEmpty, repeated_of_utf8ByteSize_eq_zero s hEmpty]
  · have hSmall : x.count ≤ maxBytes :=
      Nat.le_trans (Nat.le_mul_of_pos_left x.count (Nat.pos_of_ne_zero hEmpty)) h
    have hBound : (maxBytes : Int) ≤ Number.maxInteger := by decide
    rw [Number.truncate_of_isCount hCount, Int.min_eq_right (by omega), Int.toNat_natCast]

/-- A product that is a word of 64 bits is computed exactly, and one that is not has no word. -/
theorem word?_natCast (n : Nat) :
    word? n = if n < UInt64.size then some (UInt64.ofNat n) else none := by
  rw [word?, Int.toNat_natCast]
  split
  case isTrue h => rw [if_pos (by omega)]
  case isFalse h => rw [if_neg (by omega)]

/-- The number of copies is always a word. -/
theorem exists_word?_truncate {x : Number} (h : x.IsCount) :
    ∃ copies : UInt64, word? x.truncate = some copies ∧ copies.toNat = x.truncate.toNat := by
  have hTruncate := Number.truncate_of_isCount h
  simp only [Number.maxInteger] at hTruncate
  have hWord : x.truncate.toNat < UInt64.size := by
    simp only [UInt64.size]
    omega
  refine ⟨UInt64.ofNat x.truncate.toNat, ?_, UInt64.toNat_ofNat_of_lt' hWord⟩
  exact if_pos (by omega)

/-- Repetition in machine words, of a text with the given number of bytes. The truncated number of
copies may fail to be an unsigned word, and so may its product with the number of bytes; both would
be too long a text. -/
def repeatWord (s : String) (bytes : UInt64) (x : Number) : Except Fault Value :=
  let tooLong := .error { cause := .stringTooLong maxBytes }
  if x.isIntegral && 0 ≤ x.scaled then
    (word? x.truncate).elim tooLong fun copies =>
      (word? (bytes.toNat * copies.toNat : Nat)).elim tooLong fun total =>
        if total.toNat ≤ maxBytes then .ok (.text (repeated s copies.toNat)) else tooLong
  else .error { cause := .invalidOperand "*" "string" "number" }

/-- Where the product overflows, it is far beyond the greatest number of bytes. -/
theorem repeatWord_eq_textual {bytes : UInt64} (h : bytes.toNat = s.utf8ByteSize) (x : Number) :
    repeatWord s bytes x = Value.textual .multiply (.text s) (.number x) := by
  by_cases hCount : x.IsCount
  · obtain ⟨copies, hWord, hCopies⟩ := exists_word?_truncate hCount
    have hGuard : (x.isIntegral && decide (0 ≤ x.scaled)) = true := by
      simp [hCount.1, hCount.2]
    simp only [repeatWord, Value.textual, Value.repetitions?_eq_some hCount, hGuard, if_true]
    rw [hWord, Option.elim_some, h, hCopies, word?_natCast]
    by_cases hFits : s.utf8ByteSize * x.truncate.toNat < UInt64.size
    · rw [if_pos hFits, Option.elim_some, UInt64.toNat_ofNat_of_lt' hFits]
    · have hLong : ¬ s.utf8ByteSize * x.truncate.toNat ≤ maxBytes := by
        have hBound : maxBytes < UInt64.size := by decide
        omega
      rw [if_neg hFits, Option.elim_none, if_neg hLong]
  · have hGuard : ¬ (x.isIntegral && decide (0 ≤ x.scaled)) = true := by
      simpa [Number.IsCount] using hCount
    simp only [repeatWord, Value.textual, Value.repetitions?_eq_none hCount, if_neg hGuard]
    rfl

/-- The product of a text and a number. -/
def product (s : String) (x : Number) : Except Fault Value :=
  ((Value.text s).arith .multiply (.number x)).result

/-- A text times a number is neither arithmetic on lists nor between numbers, and so it is worked on
as texts are. -/
theorem product_eq_textual (x : Number) :
    product s x = Value.textual .multiply (.text s) (.number x) := by
  rw [product, Value.arith_of_length?_eq_none .multiply rfl, Outcome.ofExcept_result]
  rfl

/-- Times a natural number, a text is written that often if its bytes allow it, and is too long
otherwise. -/
theorem product_of_isExactly {x : Number} {n : Nat} (h : x.IsExactly n) :
    product s x =
      if s.utf8ByteSize * n ≤ maxBytes then .ok (.text (repeated s n))
      else .error { cause := .stringTooLong maxBytes } := by
  obtain ⟨hCount, rfl⟩ := Number.isExactly_iff.mp h
  rw [product_eq_textual, Value.textual_multiply_of_isCount s hCount]
  by_cases hShort : s.utf8ByteSize * x.count ≤ maxBytes
  · rw [if_pos hShort, if_pos hShort, repeated_truncate s hCount hShort]
  · rw [if_neg hShort, if_neg hShort]

/-- Times a fraction, a number below zero, an infinity or NaN, a text is refused for the operator,
not for its length. -/
theorem product_of_not_isExactly {x : Number} (h : ∀ n, ¬ x.IsExactly n) :
    product s x = .error { cause := .invalidOperand "*" "string" "number" } := by
  rw [product_eq_textual, Value.textual_multiply_of_not_isRepetition]
  · rfl
  · rintro ⟨_, _, _, hNumber, hCount⟩
    cases hNumber
    exact h x.count (Number.isExactly_iff.mpr ⟨hCount, rfl⟩)

/-- Success says what the number is, that the bytes are within the bound, and what is written. -/
theorem product_eq_ok_iff (x : Number) (v : Value) :
    product s x = .ok v ↔
      ∃ n, x.IsExactly n ∧ s.utf8ByteSize * n ≤ maxBytes ∧ v = .text (repeated s n) := by
  constructor
  · intro h
    by_cases hExact : ∃ n, x.IsExactly n
    · obtain ⟨n, hn⟩ := hExact
      rw [product_of_isExactly s hn] at h
      by_cases hShort : s.utf8ByteSize * n ≤ maxBytes
      · rw [if_pos hShort] at h
        exact ⟨n, hn, hShort, (Except.ok.inj h).symm⟩
      · rw [if_neg hShort] at h
        cases h
    · rw [product_of_not_isExactly s (not_exists.mp hExact)] at h
      cases h
  · rintro ⟨n, hn, hShort, rfl⟩
    rw [product_of_isExactly s hn, if_pos hShort]

/-- A fault is one of two: that the text is too long, for a natural number of copies with too many
bytes, or that the operator does not apply, for a number that is no natural one. -/
theorem product_eq_error_iff (x : Number) (fault : Fault) :
    product s x = .error fault ↔
      (∃ n, x.IsExactly n ∧ maxBytes < s.utf8ByteSize * n ∧
        fault = { cause := .stringTooLong maxBytes }) ∨
      (∀ n, ¬ x.IsExactly n) ∧ fault = { cause := .invalidOperand "*" "string" "number" } := by
  constructor
  · intro h
    by_cases hExact : ∃ n, x.IsExactly n
    · obtain ⟨n, hn⟩ := hExact
      rw [product_of_isExactly s hn] at h
      by_cases hShort : s.utf8ByteSize * n ≤ maxBytes
      · rw [if_pos hShort] at h
        cases h
      · rw [if_neg hShort] at h
        exact .inl ⟨n, hn, Nat.lt_of_not_le hShort, (Except.error.inj h).symm⟩
    · rw [product_of_not_isExactly s (not_exists.mp hExact)] at h
      exact .inr ⟨not_exists.mp hExact, (Except.error.inj h).symm⟩
  · rintro (⟨n, hn, hLong, rfl⟩ | ⟨hExact, rfl⟩)
    · rw [product_of_isExactly s hn, if_neg (Nat.not_le_of_lt hLong)]
    · exact product_of_not_isExactly s hExact

/-- A text that may be written `m + n` times over may be written `m` times and `n` times. -/
theorem product_add {x y z : Number} {m n : Nat} {v : Value} (hx : x.IsExactly m)
    (hy : y.IsExactly n) (hz : z.IsExactly (m + n)) (h : product s z = .ok v) :
    ∃ p q, product s x = .ok (.text p) ∧ product s y = .ok (.text q) ∧ v = .text (p ++ q) := by
  obtain ⟨total, hTotal, hShort, rfl⟩ := (product_eq_ok_iff s z v).mp h
  have hSum : total = m + n := by
    rw [(Number.isExactly_iff.mp hTotal).2, (Number.isExactly_iff.mp hz).2]
  subst hSum
  have hFirst := Nat.le_trans (Nat.mul_le_mul_left s.utf8ByteSize (Nat.le_add_right m n)) hShort
  have hSecond := Nat.le_trans (Nat.mul_le_mul_left s.utf8ByteSize (Nat.le_add_left n m)) hShort
  refine ⟨repeated s m, repeated s n, ?_, ?_, congrArg Value.text (repeated_add s m n)⟩
  · rw [product_of_isExactly s hx, if_pos hFirst]
  · rw [product_of_isExactly s hy, if_pos hSecond]

end Text

open Text in
/-- A text times a number is the text written as often as the number says, exactly, if the number
is a natural one and the result, whose bytes are those of the text that many times, has at most the
greatest number of bytes. With more bytes, however many, the result is too long, and a number that
is no natural one is refused. So the empty text may be written any number of times, and the text for
a sum is the text for one part behind the other. Computing with words of 64 bits comes to the same. -/
theorem repetition_exact_and_bounded (s : String) (x : Number) :
    (∀ v, product s x = .ok v ↔ ∃ n, x.IsExactly n ∧ s.utf8ByteSize * n ≤ maxBytes ∧
      v = .text (String.join (List.replicate n s))) ∧
    (∀ n, (String.join (List.replicate n s)).utf8ByteSize = s.utf8ByteSize * n) ∧
    (∀ fault, product s x = .error fault ↔
      (∃ n, x.IsExactly n ∧ maxBytes < s.utf8ByteSize * n ∧
        fault = { cause := .stringTooLong maxBytes }) ∨
      (∀ n, ¬ x.IsExactly n) ∧ fault = { cause := .invalidOperand "*" "string" "number" }) ∧
    (∀ n, x.IsExactly n → product "" x = .ok (.text "")) ∧
    (∀ (y z : Number) (m n : Nat) (v : Value), x.IsExactly m → y.IsExactly n →
      z.IsExactly (m + n) → product s z = .ok v →
      ∃ p q, product s x = .ok (.text p) ∧ product s y = .ok (.text q) ∧ v = .text (p ++ q)) ∧
    (∀ bytes : UInt64, bytes.toNat = s.utf8ByteSize → repeatWord s bytes x = product s x) := by
  simp only [← repeated_eq_join]
  refine ⟨product_eq_ok_iff s x, utf8ByteSize_repeated s, product_eq_error_iff s x, ?_, ?_, ?_⟩
  · intro n hn
    have hEmpty : ("" : String).utf8ByteSize * n = 0 := Nat.zero_mul n
    rw [product_of_isExactly "" hn, hEmpty, if_pos (Nat.zero_le maxBytes)]
    rfl
  · intro y z m n v hx hy hz h
    exact product_add s hx hy hz h
  · intro bytes hBytes
    rw [repeatWord_eq_textual s hBytes x, product_eq_textual]

end DynamicValue
