import DynamicValue.Items.Access
import DynamicValue.Proofs.Broadcast.Elementwise

/-!
Arithmetic on parts of lists. Elements meet in pairs and from left to right, so two lists that are
each put together from two parts are worked through part by part, the second part only if the first
one succeeds. The parts of a success are the successes of the parts, which settles slices.
-/

namespace DynamicValue

namespace Value

variable {op : Arithmetic} {xs ys zs : Items}

/-- The elements of the first parts come before those of the second ones, for the faults and for
the log as well. -/
theorem arithEach_append (op : Arithmetic) (hLength : xs.length = ys.length) (xs' ys' : Items) :
    arithEach op (xs ++ xs') (ys ++ ys') = (do
      let first ← arithEach op xs ys
      let second ← arithEach op xs' ys'
      return first ++ second) := by
  induction xs generalizing ys with
  | nil =>
      rw [List.eq_nil_of_length_eq_zero hLength.symm]
      simp [arithEach]
  | cons x xs ih =>
      cases ys with
      | nil => simp at hLength
      | cons y ys =>
          have hTail := ih (Nat.succ.inj hLength)
          simp [arithEach, hTail]

/-- A success can be cut anywhere, also behind the end. -/
theorem arithEach_take_drop (hLength : xs.length = ys.length)
    (h : (arithEach op xs ys).result = .ok zs) (i : Nat) :
    (arithEach op (xs.take i) (ys.take i)).result = .ok (zs.take i) ∧
      (arithEach op (xs.drop i) (ys.drop i)).result = .ok (zs.drop i) := by
  have hTake : (xs.take i).length = (ys.take i).length := by
    rw [List.length_take, List.length_take, hLength]
  have hParts := arithEach_append op hTake (xs.drop i) (ys.drop i)
  rw [List.take_append_drop, List.take_append_drop] at hParts
  have hResult := (arithEach_eq_ok hLength h).1
  rw [hParts, Outcome.pair_eq_ok_iff] at h
  obtain ⟨first, second, hFirst, hSecond, hJoined⟩ := h
  have hCut : first.length = (zs.take i).length := by
    rw [(arithEach_eq_ok hTake hFirst).1, List.length_take, List.length_take, hResult]
  rw [← List.take_append_drop i zs] at hJoined
  obtain ⟨rfl, rfl⟩ := List.append_inj hJoined hCut
  exact ⟨hFirst, hSecond⟩

/-- Three lists of one length have the same bounds for their slices. -/
theorem arithEach_slice (hLength : xs.length = ys.length)
    (h : (arithEach op xs ys).result = .ok zs) (start stop : Int) :
    (arithEach op (xs.slice start stop) (ys.slice start stop)).result =
      .ok (zs.slice start stop) := by
  have hResult := (arithEach_eq_ok hLength h).1
  simp only [Items.slice, ← hLength, hResult]
  generalize Items.sliceBound start xs.length = first
  have hRest : (xs.drop first).length = (ys.drop first).length := by
    rw [List.length_drop, List.length_drop, hLength]
  exact (arithEach_take_drop hRest (arithEach_take_drop hLength h first).2 _).1

end Value

namespace Items

variable {op : Arithmetic} {xs ys zs : Items} {s : Value}

theorem length_slice_congr (hLength : xs.length = ys.length) (start stop : Int) :
    (xs.slice start stop).length = (ys.slice start stop).length := by
  simp only [slice, List.length_take, List.length_drop, hLength]

/-- Copies of one value for the elements of a list, and for those of its slice. -/
theorem slice_replicate (xs : Items) (s : Value) (start stop : Int) :
    slice (List.replicate xs.length s) start stop =
      List.replicate (xs.slice start stop).length s := by
  simp only [slice, List.length_replicate, List.drop_replicate, List.take_replicate,
    List.length_take, List.length_drop]

theorem arith_list_of_length_eq (op : Arithmetic) (hLength : xs.length = ys.length) :
    xs.arith op (.list ys) = Value.arithEach op xs ys := by
  rw [arith, hLength, Value.checkShape_self, pure_bind]

theorem arith_leaf (op : Arithmetic) (xs : Items) (hLeaf : s.length? = none) :
    xs.arith op s = Value.arithEach op xs (List.replicate xs.length s) := by
  rw [arith_eq, Value.spread_of_length?_eq_none hLeaf, List.length_replicate,
    Value.checkShape_self, pure_bind]

/-- Success between two lists is proof that they have one length. -/
theorem length_eq_of_arith_list (h : (xs.arith op (.list ys)).result = .ok zs) :
    xs.length = ys.length := by
  rw [arith, Outcome.bind_eq_ok_iff] at h
  obtain ⟨_, hShape, _⟩ := h
  exact Value.eq_of_checkShape_eq_ok hShape

/-- Two lists that are each put together from two parts, part by part. -/
theorem arith_append (op : Arithmetic) {xs' ys' : Items} (hFirst : xs.length = ys.length)
    (hSecond : xs'.length = ys'.length) :
    (xs ++ xs').arith op (.list (ys ++ ys')) = (do
      let first ← xs.arith op (.list ys)
      let second ← xs'.arith op (.list ys')
      return first ++ second) := by
  have hWhole : (xs ++ xs').length = (ys ++ ys').length := by
    rw [List.length_append, List.length_append, hFirst, hSecond]
  rw [arith_list_of_length_eq op hWhole, arith_list_of_length_eq op hFirst,
    arith_list_of_length_eq op hSecond, Value.arithEach_append op hFirst]

/-- The slices of two lists with the same bounds come to the slice of the result. That the whole
operation succeeds is needed: elsewhere a slice may leave out the elements at fault. -/
theorem arith_slice_list (h : (xs.arith op (.list ys)).result = .ok zs) (start stop : Int) :
    ((xs.slice start stop).arith op (.list (ys.slice start stop))).result =
      .ok (zs.slice start stop) := by
  have hLength := length_eq_of_arith_list h
  rw [arith_list_of_length_eq op hLength] at h
  rw [arith_list_of_length_eq op (length_slice_congr hLength start stop)]
  exact Value.arithEach_slice hLength h start stop

/-- What is broadcast over a list is broadcast over its slices. -/
theorem arith_slice_leaf (hLeaf : s.length? = none) (h : (xs.arith op s).result = .ok zs)
    (start stop : Int) : ((xs.slice start stop).arith op s).result = .ok (zs.slice start stop) := by
  rw [arith_leaf op xs hLeaf] at h
  rw [arith_leaf op _ hLeaf, ← slice_replicate]
  exact Value.arithEach_slice List.length_replicate.symm h start stop

end Items

/-- If an operation between two lists succeeds, then it succeeds between the slices of the two with
the same bounds, whatever these are, and gives the slice of the result; likewise between a slice of
a list and a value that is no list. Between two lists put together from parts of equal lengths it
gives the results of the parts put together, or the fault of the first part, or that of the second
part if the first one succeeds. The same goes for the lists as values. -/
theorem arith_commutes_with_segments (op : Arithmetic) :
    (∀ xs ys zs : Items, (xs.arith op (.list ys)).result = .ok zs → ∀ start stop : Int,
      ((xs.slice start stop).arith op (.list (ys.slice start stop))).result =
        .ok (zs.slice start stop)) ∧
    (∀ (xs zs : Items) (s : Value), s.length? = none → (xs.arith op s).result = .ok zs →
      ∀ start stop : Int,
        ((xs.slice start stop).arith op s).result = .ok (zs.slice start stop)) ∧
    (∀ xs ys xs' ys' : Items, xs.length = ys.length → xs'.length = ys'.length →
      let first := (xs.arith op (.list ys)).result
      let second := (xs'.arith op (.list ys')).result
      let whole := ((xs ++ xs').arith op (.list (ys ++ ys'))).result
      (∀ zs zs', first = .ok zs → second = .ok zs' → whole = .ok (zs ++ zs')) ∧
      (∀ fault, first = .error fault → whole = .error fault) ∧
      (∀ zs fault, first = .ok zs → second = .error fault → whole = .error fault)) ∧
    (∀ (xs : Items) (right : Value), ((Value.list xs).arith op right).result =
      (xs.arith op right).result.map Value.list) := by
  refine ⟨?_, ?_, ?_, ?_⟩
  · intro xs ys zs h start stop
    exact Items.arith_slice_list h start stop
  · intro xs zs s hLeaf h start stop
    exact Items.arith_slice_leaf hLeaf h start stop
  · intro xs ys xs' ys' hFirst hSecond
    rw [Items.arith_append op hFirst hSecond]
    refine ⟨?_, ?_, ?_⟩
    · intro zs zs' hOk hOk'
      exact Outcome.pair_eq_ok_iff.mpr ⟨zs, zs', hOk, hOk', rfl⟩
    · intro fault hFault
      exact Outcome.pair_eq_error_iff.mpr (.inl hFault)
    · intro zs fault hOk hFault
      exact Outcome.pair_eq_error_iff.mpr (.inr ⟨zs, hOk, hFault⟩)
  · intro xs right
    rw [Value.arith_list_eq_map, Outcome.map_result]

end DynamicValue
