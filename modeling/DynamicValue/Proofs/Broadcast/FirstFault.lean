import DynamicValue.Evaluate
import DynamicValue.Proofs.Broadcast.NodeFault

/-!
Which fault an operation on nested values ends with. The left value is walked through, a list
before its elements and these from left to right; the operation fails if some node on the walk is
at fault, and its fault is that of the first such node.
-/

namespace DynamicValue

namespace Value

variable {op : Arithmetic}

/-- The node of the left value at a path is at fault against what goes with it on the right. -/
def FaultAt (op : Arithmetic) (a b : Value) (path : Path) (cause : Fault.Cause) : Prop :=
  ∃ x y, a.at? path = some x ∧ b.along? path = some y ∧ NodeFault op x y cause

/-- No node that comes earlier in the walk is at fault. -/
def FirstFault (op : Arithmetic) (a b : Value) (path : Path) (cause : Fault.Cause) : Prop :=
  FaultAt op a b path cause ∧
    ∀ (earlier : Path) (other : Fault.Cause), FaultAt op a b earlier other → ¬ earlier.Before path

theorem faultAt_nil_iff {a b : Value} {cause : Fault.Cause} :
    FaultAt op a b [] cause ↔ NodeFault op a b cause := by
  simp [FaultAt]

/-- A fault within a list is a fault within one of its elements, against what goes with this element
on the right. -/
theorem faultAt_cons_iff {xs : Items} {b : Value} {i : Nat} {path : Path} {cause : Fault.Cause} :
    FaultAt op (.list xs) b (i :: path) cause ↔
      ∃ x y, xs[i]? = some x ∧ b.partner? i = some y ∧ FaultAt op x y path cause := by
  constructor
  · intro hFaultAt
    obtain ⟨v, w, hv, hw, hFault⟩ := hFaultAt
    obtain ⟨_, x, hList, hx, hv⟩ := at?_cons_eq_some_iff.mp hv
    cases hList
    obtain ⟨y, hy, hw⟩ := along?_cons_eq_some_iff.mp hw
    exact ⟨x, y, hx, hy, v, w, hv, hw, hFault⟩
  · intro hElement
    obtain ⟨x, y, hx, hy, v, w, hv, hw, hFault⟩ := hElement
    exact ⟨v, w, at?_cons_eq_some_iff.mpr ⟨xs, x, rfl, hx, hv⟩,
      along?_cons_eq_some_iff.mpr ⟨y, hy, hw⟩, hFault⟩

/-- An operation that succeeds leaves no node at fault. -/
theorem not_faultAt_of_ok {a b c : Value} (h : (a.arith op b).result = .ok c) (path : Path)
    (cause : Fault.Cause) : ¬ FaultAt op a b path cause := by
  intro hFaultAt
  obtain ⟨x, y, hx, hy, hFault⟩ := hFaultAt
  obtain ⟨y', z, hy', _, hOk⟩ := arith_at? h hx
  have hPartner : y = y' := Option.some.inj (hy.symm.trans hy')
  subst hPartner
  rw [hFault.arith_result] at hOk
  cases hOk

/-- A value at fault itself comes before all of its parts, since a walk starts at the top. -/
theorem FirstFault.of_nodeFault {a b : Value} {cause : Fault.Cause}
    (h : NodeFault op a b cause) : FirstFault op a b [] cause := by
  refine ⟨faultAt_nil_iff.mpr h, ?_⟩
  intro earlier other _ hBefore
  cases hBefore

/-- Between lists that fit each other, the first fault in the first element that has any. -/
theorem FirstFault.of_element {xs : Items} {b x y : Value} {i : Nat} {path : Path}
    {cause : Fault.Cause} (hShape : ∀ ys, b = .list ys → ys.length = xs.length)
    (hx : xs[i]? = some x) (hy : b.partner? i = some y) (h : FirstFault op x y path cause)
    (hBefore : ∀ (j : Nat) (v w : Value), j < i → xs[j]? = some v → b.partner? j = some w →
      ∃ z, (v.arith op w).result = .ok z) :
    FirstFault op (.list xs) b (i :: path) cause := by
  refine ⟨faultAt_cons_iff.mpr ⟨x, y, hx, hy, h.1⟩, ?_⟩
  intro earlier other hFault hEarlier
  cases hEarlier with
  | outside =>
      cases faultAt_nil_iff.mp hFault with
      | shape differ => exact differ (hShape _ rfl)
      | multiply leaf | divide leaf => cases leaf
  | left less p =>
      obtain ⟨v, w, hv, hw, hFault⟩ := faultAt_cons_iff.mp hFault
      obtain ⟨z, hOk⟩ := hBefore _ v w less hv hw
      exact not_faultAt_of_ok hOk p other hFault
  | inside _ before =>
      obtain ⟨v, w, hv, hw, hFault⟩ := faultAt_cons_iff.mp hFault
      have hLeft : x = v := Option.some.inj (hx.symm.trans hv)
      have hRight : y = w := Option.some.inj (hy.symm.trans hw)
      subst hLeft hRight
      exact h.2 _ other hFault before

/-- An operation that fails does so with the first fault of the walk. -/
theorem firstFault_of_error {a b : Value} {fault : Fault}
    (h : (a.arith op b).result = .error fault) :
    ∃ path cause, FirstFault op a b path cause ∧ fault = { cause } := by
  induction a generalizing b with
  | list xs ih =>
      rcases arith_list_eq_error h with ⟨ys, rfl, hne, rfl⟩ |
        ⟨hShape, i, x, y, hx, hy, hFault, hBefore⟩
      · exact ⟨[], _, .of_nodeFault (.shape hne.symm), rfl⟩
      · obtain ⟨path, cause, hFirst, rfl⟩ := ih x (List.mem_of_getElem? hx) hFault
        exact ⟨i :: path, cause, .of_element hShape hx hy hFirst hBefore, rfl⟩
  | null | number | text =>
      rw [arith_of_length?_eq_none op rfl, Outcome.ofExcept_result, scalar_eq_error_iff rfl] at h
      obtain ⟨cause, hFault, rfl⟩ := h
      exact ⟨[], cause, .of_nodeFault hFault, rfl⟩

/-- At most one node is the first at fault, and it has one fault. -/
theorem FirstFault.unique {a b : Value} {p q : Path} {first second : Fault.Cause}
    (hFirst : FirstFault op a b p first) (hSecond : FirstFault op a b q second) :
    first = second := by
  have hPath : p = q := by
    rcases p.before_trichotomy q with hBefore | rfl | hAfter
    · exact absurd hBefore (hSecond.2 p first hFirst.1)
    · rfl
    · exact absurd hAfter (hFirst.2 q second hSecond.1)
  subst hPath
  obtain ⟨x, y, hx, hy, hNode⟩ := hFirst.1
  obtain ⟨x', y', hx', hy', hNode'⟩ := hSecond.1
  have hLeft : x = x' := Option.some.inj (hx.symm.trans hx')
  have hRight : y = y' := Option.some.inj (hy.symm.trans hy')
  subst hLeft hRight
  exact hNode.cause_unique hNode'

/-- An operation fails just if some node is at fault, wherever in the left value it is. -/
theorem exists_error_iff_exists_faultAt (op : Arithmetic) (a b : Value) :
    (∃ fault, (a.arith op b).result = .error fault) ↔ ∃ path cause, FaultAt op a b path cause := by
  constructor
  · intro hFails
    obtain ⟨fault, h⟩ := hFails
    obtain ⟨path, cause, hFirst, _⟩ := firstFault_of_error h
    exact ⟨path, cause, hFirst.1⟩
  · intro hFaultAt
    obtain ⟨path, cause, hFault⟩ := hFaultAt
    cases h : (a.arith op b).result with
    | error fault => exact ⟨fault, rfl⟩
    | ok c => exact absurd hFault (not_faultAt_of_ok h path cause)

/-- The fault of an operation is the first one of the walk, and it has no notes. Any other fault
than this one is excluded, as there is one first fault only. -/
theorem arith_eq_error_iff_firstFault (op : Arithmetic) (a b : Value) (fault : Fault) :
    (a.arith op b).result = .error fault ↔
      ∃ path cause, FirstFault op a b path cause ∧ fault = { cause } := by
  refine ⟨firstFault_of_error, ?_⟩
  intro hFirstFault
  obtain ⟨path, cause, hFirst, rfl⟩ := hFirstFault
  obtain ⟨fault, h⟩ := (exists_error_iff_exists_faultAt op a b).mpr ⟨path, cause, hFirst.1⟩
  obtain ⟨_, other, hOther, rfl⟩ := firstFault_of_error h
  rw [h, hFirst.unique hOther]

/-- Adding and subtracting know no fault but the shape of lists. -/
theorem NodeFault.lists_of_add_or_subtract {x y : Value} {cause : Fault.Cause}
    (hOp : op = .add ∨ op = .subtract) (h : NodeFault op x y cause) :
    ∃ xs ys, x = .list xs ∧ y = .list ys ∧ cause = .shapeMismatch xs.length ys.length := by
  cases h with
  | shape => exact ⟨_, _, rfl, rfl, rfl⟩
  | tooLong | multiply | divide => simp at hOp

end Value

open Value in
/-- An operation fails exactly when some node of the left value is at fault against what goes with
it on the right, and it fails with the first fault of the walk and with no notes. Adding and
subtracting therefore fail over lists of different lengths only, and never with a left value that
is no list. -/
theorem evaluate_first_fault_wins (op : Arithmetic) (a b : Value) :
    ((∃ fault, ((Operator.arithmetic op).evaluate a b).result = .error fault) ↔
      ∃ path cause, FaultAt op a b path cause) ∧
    (∀ fault, ((Operator.arithmetic op).evaluate a b).result = .error fault ↔
      ∃ path cause, FirstFault op a b path cause ∧ fault = { cause, notes := [] }) ∧
    (op = .add ∨ op = .subtract →
      (∀ fault, ((Operator.arithmetic op).evaluate a b).result = .error fault →
        ∃ left right, fault = { cause := .shapeMismatch left right, notes := [] }) ∧
      (a.length? = none → ∃ c, ((Operator.arithmetic op).evaluate a b).result = .ok c)) := by
  rw [Operator.evaluate_result]
  refine ⟨exists_error_iff_exists_faultAt op a b, arith_eq_error_iff_firstFault op a b, ?_⟩
  intro hOp
  constructor
  · intro fault h
    obtain ⟨_, cause, ⟨⟨x, y, _, _, hNode⟩, _⟩, rfl⟩ := firstFault_of_error h
    obtain ⟨xs, ys, _, _, rfl⟩ := hNode.lists_of_add_or_subtract hOp
    exact ⟨xs.length, ys.length, rfl⟩
  · intro hLeaf
    rw [Operator.apply, arith_of_length?_eq_none op hLeaf, Outcome.ofExcept_result]
    cases h : scalar op a b with
    | ok c => exact ⟨c, rfl⟩
    | error fault =>
        obtain ⟨cause, hNode, _⟩ := (scalar_eq_error_iff hLeaf b fault).mp h
        obtain ⟨xs, ys, rfl, _⟩ := hNode.lists_of_add_or_subtract hOp
        cases hLeaf

/-- The text that cannot be divided comes first, and the list of another length is not reached. -/
example : ((Operator.arithmetic .divide).evaluate
    (.list [.list [.text "x"], .list [.null]]) (.list [.list [.text "y"], .list []])).result =
      .error { cause := .invalidOperand "/" "string" "string", notes := [] } := rfl

end DynamicValue
