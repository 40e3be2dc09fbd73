import DynamicValue.Proofs.Items.Position

/-!
Wrapping an index around in machine words. The index is a signed word of 64 bits, the length an
unsigned one, and between them signed words of 128 bits are computed with. None of these overflows,
even where the index is the least one or the length has all its bits set, so wrapping around is the
remainder over all words, and the empty list is the only one that it fails for.
-/

namespace DynamicValue

/-- The bounds of the 128-bit signed integers. -/
def minWide : Int := -0x80000000000000000000000000000000

def maxWide : Int := 0x7fffffffffffffffffffffffffffffff

/-- An integer as a signed word of 128 bits. One that is out of their range overflows, and there is
no result then. -/
def wide? (n : Int) : Option Int := if minWide ≤ n ∧ n ≤ maxWide then some n else none

/-- An integer as an unsigned word of 64 bits, if it is one. -/
def word? (n : Int) : Option UInt64 :=
  if 0 ≤ n ∧ n < UInt64.size then some (UInt64.ofNat n.toNat) else none

/-- The position that an index wraps around to, in machine words. There is no result if a word of
128 bits overflows on the way. The length may fail to be such a word, and the remainder may fail to
be a position; both would be the fault of the empty list. The remainder has the sign of what is
divided. -/
def normalizeWord (index : Int64) (len : UInt64) : Option (Except Fault UInt64) :=
  let refused := .error { cause := .arithmeticFault wrappingOperation }
  if len = 0 then some refused
  else if 0 ≤ index.toInt ∧ index.toInt < len.toNat then
    some (.ok (UInt64.ofNat index.toInt.toNat))
  else
    (wide? len.toNat).elim (some refused) fun wideLen => do
      let magnitude ← wide? index.toInt.natAbs
      let turns ← wide? (magnitude.tdiv wideLen + 2)
      let distance ← wide? (turns * wideLen)
      let shifted ← wide? (index.toInt + distance)
      return (word? (shifted.tmod wideLen)).elim refused .ok

/-- How many times the length an index is moved up by. -/
def wrappingTurns (index : Int) (len : Nat) : Int := (index.natAbs : Int).tdiv len + 2

/-- What wrapping an index around computes on the way to the remainder, in this order. -/
def wrappingSteps (index : Int) (len : Nat) : List Int :=
  [index.natAbs, wrappingTurns index len, wrappingTurns index len * len, shiftedIndex index len]

section Bounds

variable {len : Nat}

theorem wrappingTurns_eq (index : Int) (len : Nat) :
    wrappingTurns index len = (index.natAbs / len : Nat) + 2 := by
  rw [wrappingTurns, Int.ofNat_tdiv]

theorem shiftedIndex_eq (index : Int) (len : Nat) :
    shiftedIndex index len = index + wrappingTurns index len * len := by
  rw [shiftedIndex, wrappingTurns_eq]

/-- Moving an index up takes it past its own magnitude, by one to two lengths. -/
theorem wrappingTurns_mul_bounds (index : Int) (h : 0 < len) :
    index.natAbs + len < wrappingTurns index len * len ∧
      wrappingTurns index len * len ≤ index.natAbs + 2 * len := by
  have hTurns : wrappingTurns index len * len =
      ((index.natAbs / len * len + 2 * len : Nat) : Int) := by
    rw [wrappingTurns_eq, Int.add_mul]
    rfl
  have hBelow := Nat.div_mul_le_self index.natAbs len
  have hAbove := Nat.lt_mul_div_succ index.natAbs h
  rw [Nat.mul_add, Nat.mul_comm] at hAbove
  omega

/-- The remainder of a shifted index has no sign to take over. -/
theorem shiftedIndex_pos (index : Int) (h : 0 < len) : 0 < shiftedIndex index len := by
  have hTurns := (wrappingTurns_mul_bounds index h).1
  rw [shiftedIndex_eq]
  omega

/-- The shifted index is positive, so that its truncated remainder is the one that counts from zero,
and it is that of the index. -/
theorem shiftedIndex_tmod (index : Int) (h : 0 < len) :
    (shiftedIndex index len).tmod len = index % len := by
  rw [Int.tmod_eq_emod_of_nonneg (Int.le_of_lt (shiftedIndex_pos index h)), shiftedIndex,
    Int.add_mul_emod_self_right]

/-- The index and the length of 64 bits leave the 128 bits nearly empty. -/
theorem wrappingSteps_bounded {index : Int} (h : 0 < len)
    (hIndex : index.natAbs ≤ 0x8000000000000000) (hLen : len < 0x10000000000000000) :
    ∀ n ∈ wrappingSteps index len, minWide < n ∧ n < maxWide := by
  obtain ⟨hLower, hUpper⟩ := wrappingTurns_mul_bounds index h
  have hQuotient := Nat.div_le_self index.natAbs len
  have hTurns := wrappingTurns_eq index len
  have hShifted := shiftedIndex_eq index len
  -- the quotient itself is only needed as a number that is not above the magnitude
  generalize index.natAbs / len = quotient at hQuotient hTurns
  simp only [wrappingSteps, List.mem_cons, List.not_mem_nil, or_false, minWide, maxWide]
  rintro n (rfl | rfl | rfl | rfl) <;> omega

theorem wide?_eq_some {n : Int} (h : minWide < n ∧ n < maxWide) : wide? n = some n :=
  if_pos ⟨Int.le_of_lt h.1, Int.le_of_lt h.2⟩

theorem wide?_bind {α : Type} {n : Int} (h : minWide < n ∧ n < maxWide) (next : Int → Option α) :
    wide? n >>= next = next n := by
  rw [wide?_eq_some h]
  rfl

end Bounds

section Words

variable {len : UInt64}

/-- The magnitude of a signed word is at most `2^63`, which only the least of them has. -/
theorem natAbs_toInt_le (index : Int64) : index.toInt.natAbs ≤ 0x8000000000000000 := by
  have hLower := index.le_toInt
  have hUpper := index.toInt_lt
  omega

theorem wide?_toNat (len : UInt64) : wide? len.toNat = some (len.toNat : Int) := by
  have hWord := len.toNat_lt
  apply wide?_eq_some
  simp only [minWide, maxWide]
  omega

/-- The remainder is below the length, so it is a word like the length. -/
theorem exists_word?_emod (index : Int) (h : 0 < len.toNat) :
    ∃ pos : UInt64, word? (index % len.toNat) = some pos ∧ pos < len ∧
      pos.toNat = (index % len.toNat).toNat := by
  have hLess := toNat_emod_lt index h
  have hExact := natCast_toNat_emod index h
  have hSize := len.toNat_lt_size
  have hWord := UInt64.toNat_ofNat_of_lt' (Nat.lt_trans hLess hSize)
  refine ⟨UInt64.ofNat (index % len.toNat).toNat, if_pos (by omega), ?_, hWord⟩
  rw [UInt64.lt_iff_toNat_lt, hWord]
  exact hLess

/-- Computing in words neither overflows nor falls back on a fault: it gives the remainder. -/
theorem normalizeWord_of_word? {index : Int64} {pos : UInt64} (h : 0 < len.toNat)
    (hWord : word? (index.toInt % len.toNat) = some pos)
    (hPos : pos.toNat = (index.toInt % len.toNat).toNat) :
    normalizeWord index len = some (.ok pos) := by
  have hLen : len ≠ 0 := by
    rintro rfl
    exact absurd h (by decide)
  rw [normalizeWord, if_neg hLen]
  by_cases hWithin : 0 ≤ index.toInt ∧ index.toInt < len.toNat
  · rw [if_pos hWithin, ← Int.emod_eq_of_lt hWithin.1 hWithin.2, ← hPos, UInt64.ofNat_toNat]
  · have hSteps := wrappingSteps_bounded h (natAbs_toInt_le index) len.toNat_lt
    simp only [wrappingSteps, List.forall_mem_cons] at hSteps
    obtain ⟨hMagnitude, hTurns, hDistance, hShifted, -⟩ := hSteps
    rw [if_neg hWithin, wide?_toNat, Option.elim_some, wide?_bind hMagnitude, ← wrappingTurns,
      wide?_bind hTurns, wide?_bind hDistance, ← shiftedIndex_eq, wide?_bind hShifted,
      shiftedIndex_tmod index.toInt h, hWord, Option.elim_some]
    rfl

theorem normalizeWord_zero (index : Int64) :
    normalizeWord index 0 = some (.error { cause := .arithmeticFault wrappingOperation }) := by
  rw [normalizeWord, if_pos rfl]

end Words

/-- Over all signed words for the index and all unsigned words but zero for the length, wrapping
around gives the remainder, a position in the list, and machine words are enough to compute it: what
is computed on the way stays within 128 bits, what is divided has no sign, and neither of the two
conversions fails. Only the empty list has a fault. -/
theorem normalizeIndex_machine_words (index : Int64) (len : UInt64) :
    (len ≠ 0 → ∃ pos < len, (pos.toNat : Int) = index.toInt % len.toNat ∧
      normalizeIndex index.toInt len.toNat = .ok pos.toNat ∧
      normalizeWord index len = some (.ok pos) ∧
      (∀ n ∈ wrappingSteps index.toInt len.toNat, minWide < n ∧ n < maxWide) ∧
      0 ≤ shiftedIndex index.toInt len.toNat ∧
      wide? len.toNat = some (len.toNat : Int) ∧
      word? ((shiftedIndex index.toInt len.toNat).tmod len.toNat) = some pos) ∧
    (∀ fault, normalizeIndex index.toInt len.toNat = .error fault ↔
      len = 0 ∧ fault = { cause := .arithmeticFault wrappingOperation }) ∧
    (∀ fault, normalizeWord index len = some (.error fault) ↔
      len = 0 ∧ fault = { cause := .arithmeticFault wrappingOperation }) := by
  by_cases hEmpty : len = 0
  · subst hEmpty
    have hZero : (0 : UInt64).toNat = 0 := rfl
    rw [hZero, normalizeIndex_zero, normalizeWord_zero]
    refine ⟨fun h => absurd rfl h, ?_, ?_⟩
    · simp [eq_comm]
    · simp [eq_comm]
  · have hPositive : 0 < len.toNat :=
      Nat.pos_of_ne_zero fun hZero => hEmpty (UInt64.toNat.inj hZero)
    obtain ⟨pos, hWord, hLess, hPos⟩ := exists_word?_emod index.toInt hPositive
    have hIndex : normalizeIndex index.toInt len.toNat = .ok pos.toNat := by
      rw [normalizeIndex_of_pos index.toInt hPositive, hPos]
    have hMachine := normalizeWord_of_word? hPositive hWord hPos
    have hRemainder : (pos.toNat : Int) = index.toInt % len.toNat := by
      rw [hPos, natCast_toNat_emod index.toInt hPositive]
    rw [hIndex, hMachine]
    refine ⟨fun _ => ⟨pos, hLess, hRemainder, rfl, rfl, ?_, ?_, wide?_toNat len, ?_⟩, ?_, ?_⟩
    · exact wrappingSteps_bounded hPositive (natAbs_toInt_le index) len.toNat_lt
    · exact Int.le_of_lt (shiftedIndex_pos index.toInt hPositive)
    · rw [shiftedIndex_tmod index.toInt hPositive, hWord]
    · simp [hEmpty]
    · simp [hEmpty]

/-- The least index and the greatest length. -/
example : normalizeWord Int64.minValue 0xffffffffffffffff = some (.ok 0x7fffffffffffffff) := by
  cbv

end DynamicValue
