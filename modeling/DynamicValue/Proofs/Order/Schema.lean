import DynamicValue.Proofs.Equality.Congruence

/-!
Data of one schema. A schema fixes the kind of a value and, for a list, the schemas of its elements.
Between two values of one schema only equal kinds meet, at every depth, so texts never stand in for
values: the order is total, and level values are equal ones.
-/

namespace DynamicValue

/-- What data looks like. The schema of a list gives one to each element, which may depend on the
length of the list and on the position in it. -/
inductive Schema where
  | null
  | number
  | text
  | list (element : (length position : Nat) → Schema)

namespace Schema

/-- Whether the value is data of the schema. -/
def fits : Schema → Value → Bool
  | .null, .null => true
  | .number, .number _ => true
  | .text, .text _ => true
  | .list element, .list items =>
    items.zipIdx.all fun (item, position) => (element items.length position).fits item
  | _, _ => false

theorem fits_null_iff {v : Value} : null.fits v = true ↔ v = .null := by
  cases v <;> simp [fits]

theorem fits_number_iff {v : Value} : number.fits v = true ↔ ∃ x, v = .number x := by
  cases v <;> simp [fits]

theorem fits_text_iff {v : Value} : text.fits v = true ↔ ∃ s, v = .text s := by
  cases v <;> simp [fits]

/-- A list is data of a schema if each element is data of the schema for its position in a list of
this length. -/
theorem fits_list_iff {element : Nat → Nat → Schema} {v : Value} :
    (list element).fits v = true ↔ ∃ items, v = .list items ∧
      ∀ (i : Nat) (x : Value), items[i]? = some x → (element items.length i).fits x = true := by
  cases v with
  | list items =>
      simp only [fits, List.all_eq_true, Prod.forall, List.mem_zipIdx_iff_getElem?,
        Value.list.injEq, exists_eq_left']
      exact forall_comm
  | null | number | text => simp [fits]

end Schema

namespace Value

variable {xs ys zs : Items}

theorem compare_text (s t : String) : (Value.text s).compare (.text t) = Ord.compare s t := rfl

/-- Where elements at the same position are level only if they are equal, lists are, too. -/
theorem compareEach_eq_iff (hLength : xs.length = ys.length)
    (h : ∀ (i : Nat) (x y : Value), xs[i]? = some x → ys[i]? = some y →
      (x.compare y = .eq ↔ x.equals y = true)) :
    compareEach xs ys = .eq ↔ equalsEach xs ys = true := by
  induction xs generalizing ys with
  | nil => cases ys <;> simp [compareEach, equalsEach]
  | cons x xs ih =>
      cases ys with
      | nil => simp at hLength
      | cons y ys =>
          have hHead := h 0 x y rfl rfl
          have hTail := ih (by simpa using hLength) fun i v w hv hw => h (i + 1) v w hv hw
          rw [compareEach, equalsEach, Ordering.then_eq_eq, Bool.and_eq_true, hHead, hTail]

/-- The first difference decides. Where one of the two steps has none at a position, the other
step makes the difference, since equal elements cannot be told apart. -/
theorem compareEach_lt_trans
    (hFirst : ∀ (i : Nat) (x y : Value), xs[i]? = some x → ys[i]? = some y →
      x.compare y = .eq → x.equals y = true)
    (hSecond : ∀ (i : Nat) (y z : Value), ys[i]? = some y → zs[i]? = some z →
      y.compare z = .eq → y.equals z = true)
    (hTrans : ∀ (i : Nat) (x y z : Value), xs[i]? = some x → ys[i]? = some y → zs[i]? = some z →
      x.compare y = .lt → y.compare z = .lt → x.compare z = .lt)
    (hxy : compareEach xs ys = .lt) (hyz : compareEach ys zs = .lt) :
    compareEach xs zs = .lt := by
  induction xs generalizing ys zs with
  | nil => simp [compareEach] at hxy
  | cons x xs ih =>
      cases ys with
      | nil => simp [compareEach] at hxy
      | cons y ys =>
          cases zs with
          | nil => simp [compareEach] at hyz
          | cons z zs =>
              rw [compareEach, Ordering.then_eq_lt] at hxy hyz ⊢
              rcases hxy with hxy | ⟨hxy, hxys⟩
              · rcases hyz with hyz | ⟨hyz, _⟩
                · exact .inl (hTrans 0 x y z rfl rfl rfl hxy hyz)
                · have hEquals := hSecond 0 y z rfl rfl hyz
                  exact .inl ((Indistinguishable.of_equals hEquals).compareRight x ▸ hxy)
              · have hEquals := hFirst 0 x y rfl rfl hxy
                rw [(Indistinguishable.of_equals hEquals).compareLeft z]
                rcases hyz with hyz | ⟨hyz, hyzs⟩
                · exact .inl hyz
                · exact .inr ⟨hyz, ih (fun i v w hv hw => hFirst (i + 1) v w hv hw)
                    (fun i v w hv hw => hSecond (i + 1) v w hv hw)
                    (fun i u v w hu hv hw => hTrans (i + 1) u v w hu hv hw) hxys hyzs⟩

end Value

namespace Schema

variable {T : Schema} {a b c : Value}

open Value

/-- Between values of one schema level means equal. -/
theorem compare_eq_iff (ha : T.fits a = true) (hb : T.fits b = true) :
    a.compare b = .eq ↔ a.equals b = true := by
  induction T generalizing a b with
  | null =>
      rw [fits_null_iff] at ha hb
      subst ha hb
      simp [Value.compare, equals]
  | number =>
      obtain ⟨x, rfl⟩ := fits_number_iff.mp ha
      obtain ⟨y, rfl⟩ := fits_number_iff.mp hb
      exact beq_iff_eq.symm
  | text =>
      obtain ⟨s, rfl⟩ := fits_text_iff.mp ha
      obtain ⟨t, rfl⟩ := fits_text_iff.mp hb
      rw [compare_text, equals, beq_iff_eq]
      exact Std.LawfulEqCmp.compare_eq_iff_eq
  | list element ih =>
      obtain ⟨xs, rfl, hxs⟩ := fits_list_iff.mp ha
      obtain ⟨ys, rfl, hys⟩ := fits_list_iff.mp hb
      rw [Value.compare, equals, Ordering.then_eq_eq, Bool.and_eq_true,
        Std.LawfulEqCmp.compare_eq_iff_eq, beq_iff_eq]
      -- elements at one position share a schema only in lists of one length
      apply and_congr_right
      intro hLength
      apply compareEach_eq_iff hLength
      intro i x y hx hy
      exact ih _ _ (hxs i x hx) (hLength ▸ hys i y hy)

/-- Of two steps up between lists, the one that comes first in the lists decides the step over both,
a difference of lengths before all elements. -/
theorem compare_lt_trans (ha : T.fits a = true) (hb : T.fits b = true) (hc : T.fits c = true)
    (hFirst : a.compare b = .lt) (hSecond : b.compare c = .lt) : a.compare c = .lt := by
  induction T generalizing a b c with
  | null =>
      rw [fits_null_iff] at ha hb
      subst ha hb
      cases hFirst
  | number =>
      obtain ⟨x, rfl⟩ := fits_number_iff.mp ha
      obtain ⟨y, rfl⟩ := fits_number_iff.mp hb
      obtain ⟨z, rfl⟩ := fits_number_iff.mp hc
      have hTrans : x.compare z = .lt := Std.TransCmp.lt_trans hFirst hSecond
      exact hTrans
  | text =>
      obtain ⟨s, rfl⟩ := fits_text_iff.mp ha
      obtain ⟨t, rfl⟩ := fits_text_iff.mp hb
      obtain ⟨u, rfl⟩ := fits_text_iff.mp hc
      rw [compare_text] at hFirst hSecond ⊢
      exact Std.TransCmp.lt_trans hFirst hSecond
  | list element ih =>
      obtain ⟨xs, rfl, hxs⟩ := fits_list_iff.mp ha
      obtain ⟨ys, rfl, hys⟩ := fits_list_iff.mp hb
      obtain ⟨zs, rfl, hzs⟩ := fits_list_iff.mp hc
      rw [Value.compare, Ordering.then_eq_lt] at hFirst hSecond ⊢
      simp only [Std.LawfulEqCmp.compare_eq_iff_eq] at hFirst hSecond ⊢
      rcases hFirst with hFirst | ⟨hxy, hFirst⟩
      · left
        rcases hSecond with hSecond | ⟨hyz, _⟩
        · exact Std.TransCmp.lt_trans hFirst hSecond
        · exact hyz ▸ hFirst
      · rcases hSecond with hSecond | ⟨hyz, hSecond⟩
        · exact .inl (hxy ▸ hSecond)
        · refine .inr ⟨hxy.trans hyz, compareEach_lt_trans ?_ ?_ ?_ hFirst hSecond⟩
          · intro i x y hx hy
            exact (compare_eq_iff (hxs i x hx) (hxy ▸ hys i y hy)).mp
          · intro i y z hy hz
            exact (compare_eq_iff (hys i y hy) (hyz ▸ hzs i z hz)).mp
          · intro i x y z hx hy hz
            exact ih _ _ (hxs i x hx) (hxy ▸ hys i y hy) (hxy ▸ hyz ▸ hzs i z hz)

/-- The order that is not strict is transitive as well. Where one of the two steps is between level
values, these are equal, and equal values are ordered alike against the third one. -/
theorem compare_ne_gt_trans (ha : T.fits a = true) (hb : T.fits b = true) (hc : T.fits c = true)
    (hFirst : a.compare b ≠ .gt) (hSecond : b.compare c ≠ .gt) : a.compare c ≠ .gt := by
  cases hab : a.compare b with
  | gt => exact absurd hab hFirst
  | eq =>
      have hEquals := (compare_eq_iff ha hb).mp hab
      rwa [(Indistinguishable.of_equals hEquals).compareLeft c]
  | lt =>
      cases hbc : b.compare c with
      | gt => exact absurd hbc hSecond
      | eq =>
          have hEquals := (compare_eq_iff hb hc).mp hbc
          rwa [← (Indistinguishable.of_equals hEquals).compareRight a]
      | lt =>
          rw [compare_lt_trans ha hb hc hab hbc]
          simp

end Schema

/-- Data of one schema is totally ordered: the order is transitive, of two values one comes before
the other or they are level, and level values are equal. Numbers may be of any kind here, NaNs
included, and lists of any depth. -/
theorem compare_total_order (T : Schema) {a b c : Value} (ha : T.fits a = true)
    (hb : T.fits b = true) (hc : T.fits c = true) :
    (a.compare b ≠ .gt → b.compare c ≠ .gt → a.compare c ≠ .gt) ∧
    (a.compare b ≠ .gt ∨ b.compare a ≠ .gt) ∧
    (a.compare b = .eq ↔ a.equals b = true) := by
  refine ⟨Schema.compare_ne_gt_trans ha hb hc, ?_, Schema.compare_eq_iff ha hb⟩
  rw [a.compare_swap b]
  cases a.compare b <;> simp

/-- Pairs of a number and a list of texts. A step over the two zeros is decided by the texts, the
step to NaN by the number. -/
theorem compare_total_order_pairs :
    let T : Schema := .list fun _ position =>
      if position = 0 then .number else .list fun _ _ => .text
    let a : Value := .list [.number (.ofPattern true 0), .list [.text "x"]]
    let b : Value := .list [.number .zero, .list [.text "y"]]
    let c : Value := .list [.number .nan, .list []]
    T.fits a = true ∧ T.fits b = true ∧ T.fits c = true ∧
      a.compare b ≠ .gt ∧ b.compare c ≠ .gt ∧ a.compare c ≠ .gt := by
  intro T a b c
  have ha : T.fits a = true := by decide
  have hb : T.fits b = true := by decide
  have hc : T.fits c = true := by decide
  have hFirst : a.compare b ≠ .gt := by decide
  have hSecond : b.compare c ≠ .gt := by decide
  exact ⟨ha, hb, hc, hFirst, hSecond, (compare_total_order T ha hb hc).1 hFirst hSecond⟩

end DynamicValue
