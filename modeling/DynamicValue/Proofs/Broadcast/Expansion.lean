import DynamicValue.Proofs.Broadcast.Elementwise

/-!
Broadcasting written out. A value with another one in place of each of its leaves meets the first
one leaf by leaf, so calculating with it comes to the same as calculating with the one value itself,
down to the fault and the log.
-/

namespace DynamicValue

namespace Value

variable {op : Arithmetic} {s : Value}

mutual

/-- The first value with the second one in place of each of its leaves. -/
def expand : Value → Value → Value
  | .list items, s => .list (expandEach items s)
  | _, s => s

def expandEach : List Value → Value → List Value
  | [], _ => []
  | v :: vs, s => v.expand s :: expandEach vs s

end

theorem expandEach_eq_map (items : Items) (s : Value) :
    expandEach items s = items.map (·.expand s) := by
  induction items with
  | nil => rfl
  | cons v vs ih => rw [expandEach, ih, List.map_cons]

@[simp] theorem expand_list (items : Items) (s : Value) :
    (Value.list items).expand s = .list (items.map (·.expand s)) := by
  rw [expand, expandEach_eq_map]

theorem expand_of_length?_eq_none {a : Value} (h : a.length? = none) (s : Value) :
    a.expand s = s := by
  cases a with
  | list items => cases h
  | null | number | text => rfl

/-- Where the second value is no list, expansion neither makes a list of a leaf nor changes how long
a list is. -/
theorem length?_expand (hLeaf : s.length? = none) (a : Value) :
    (a.expand s).length? = a.length? := by
  cases a with
  | list items => simp
  | null | number | text => exact hLeaf

/-- A path leads into the expansion just where it leads into the value, and there to the expansion
of what it leads to in the value. -/
theorem at?_expand (hLeaf : s.length? = none) (a : Value) (path : Path) :
    (a.expand s).at? path = (a.at? path).map (·.expand s) := by
  induction path generalizing a with
  | nil => rfl
  | cons i path ih =>
      cases a with
      | list items =>
          rw [expand_list, at?_list_cons, at?_list_cons, List.getElem?_map]
          cases items[i]? with
          | none => rfl
          | some v => exact ih v
      | null | number | text => exact at?_cons_of_length?_eq_none hLeaf i path

/-- A value with the lists of another one, of the same lengths and in the same places, and one and
the same value at all of its leaves. -/
structure IsExpansion (a s e : Value) : Prop where
  skeleton : ∀ path : Path, (e.at? path).map length? = (a.at? path).map length?
  leaves : ∀ (path : Path) (x : Value), a.at? path = some x → x.length? = none →
    e.at? path = some s

/-- An expansion exists: the computed one has the lists of the value along every path, and the
second value at every leaf. -/
theorem isExpansion_expand (hLeaf : s.length? = none) (a : Value) :
    IsExpansion a s (a.expand s) := by
  constructor
  · intro path
    rw [at?_expand hLeaf, Option.map_map]
    congr 1
    funext v
    exact length?_expand hLeaf v
  · intro path x hx hLength
    rw [at?_expand hLeaf, hx, Option.map_some, expand_of_length?_eq_none hLength]

theorem IsExpansion.length?_eq {a e : Value} (h : IsExpansion a s e) : e.length? = a.length? := by
  simpa using h.skeleton []

/-- The elements of an expansion are the expansions of the elements. -/
theorem IsExpansion.element {xs es : Items} (h : IsExpansion (.list xs) s (.list es)) {i : Nat}
    {x e : Value} (hx : xs[i]? = some x) (he : es[i]? = some e) : IsExpansion x s e := by
  constructor
  · intro path
    simpa [at?_list_cons, hx, he] using h.skeleton (i :: path)
  · intro path y hy hLength
    have hPath : (Value.list xs).at? (i :: path) = some y := by
      simpa [at?_list_cons, hx] using hy
    simpa [at?_list_cons, he] using h.leaves (i :: path) y hPath hLength

/-- There is one expansion only. -/
theorem IsExpansion.eq_expand {a e : Value} (h : IsExpansion a s e) : e = a.expand s := by
  induction a generalizing e with
  | list xs ih =>
      have hLength := h.length?_eq
      cases e with
      | list es =>
          simp only [length?_list, Option.some.injEq] at hLength
          rw [expand_list]
          congr 1
          apply List.ext_getElem?
          intro i
          rw [List.getElem?_map]
          cases hx : xs[i]? with
          | none =>
              rw [List.getElem?_eq_none_iff] at hx
              exact List.getElem?_eq_none_iff.mpr (by omega)
          | some x =>
              have hi : i < es.length := by
                rw [hLength]
                exact (List.getElem?_eq_some_iff.mp hx).1
              have he := List.getElem?_eq_getElem hi
              rw [he, ih x (List.mem_of_getElem? hx) (h.element hx he)]
              rfl
      | null | number | text => cases hLength
  | null | number | text => exact Option.some.inj (h.leaves [] _ rfl rfl)

/-- Where each element comes to the same against a value of its own as against the one for all, so
does the list. -/
theorem arithEach_map (xs : Items) (f : Value → Value)
    (h : ∀ x ∈ xs, x.arith op (f x) = x.arith op s) :
    arithEach op xs (xs.map f) = arithAll op xs s := by
  induction xs with
  | nil => rfl
  | cons x xs ih =>
      rw [List.map_cons, arithEach, arithAll, h x (by simp), ih fun y hy => h y (by simp [hy])]

/-- By induction on the left value. Its lists meet lists of their own lengths in the expansion, so
no shape can differ there. -/
theorem arith_expand (op : Arithmetic) (a : Value) (hLeaf : s.length? = none) :
    a.arith op (a.expand s) = a.arith op s := by
  induction a with
  | list xs ih =>
      rw [expand_list, arith_list, arith_list, spread_of_length?_eq_none hLeaf,
        ← arithAll_eq_arithEach]
      simp only [spread, List.length_map, List.length_replicate, arithEach_map xs _ ih]
  | null | number | text => rfl

end Value

open Value in
/-- Arithmetic against a value that is no list is arithmetic against the expansion, the value with
the lists of the left one and that value at all leaves. There is one expansion; against it an
operation succeeds with the same result, or fails with the same fault, and logs the same. -/
theorem broadcast_agrees_with_expansion (op : Arithmetic) (a s : Value) (hLeaf : s.length? = none) :
    (∃ e, IsExpansion a s e) ∧ ∀ e, IsExpansion a s e → a.arith op e = a.arith op s := by
  refine ⟨⟨a.expand s, isExpansion_expand hLeaf a⟩, ?_⟩
  intro e h
  rw [h.eq_expand]
  exact arith_expand op a hLeaf

open Value in
/-- The null inside the first element is the first leaf that cannot be divided. -/
theorem broadcast_agrees_with_expansion_fault :
    let a : Value := .list [.list [.list [], .null], .number .zero]
    let s : Value := .text "s"
    s.length? = none ∧ a.arith .divide (.list [.list [.list [], s], s]) = a.arith .divide s ∧
      (a.arith .divide s).result = .error { cause := .invalidOperand "/" "null" "string" } := by
  intro a s
  exact ⟨rfl, (broadcast_agrees_with_expansion .divide a s rfl).2 _ (isExpansion_expand rfl a), rfl⟩

end DynamicValue
