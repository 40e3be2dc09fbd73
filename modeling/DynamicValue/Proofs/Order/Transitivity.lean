import DynamicValue.Proofs.Number.Reading
import DynamicValue.Proofs.Order.Trichotomy

/-!
Cycles of the order. Numbers and lists have an order of their own, which is not that of their texts,
and values of other kinds are placed among them by text. A value that stands between two numbers or
two lists by text, while these stand the other way round by value, closes a cycle. No cycle comes
about in another way: three lists of one length that close one have such a triple among their
elements, at the first place at which they differ. Elements behind this place may still put three
lists in order, so the main statement says of three values, each below the next one, just when the
first is below the last.
-/

namespace DynamicValue

/-- Three steps of an order that lead around in a circle, none of them down and some up. -/
def Cyclic (p q r : Ordering) : Prop :=
  p ≠ .gt ∧ q ≠ .gt ∧ r ≠ .gt ∧ ¬ (p = .eq ∧ q = .eq ∧ r = .eq)

instance (p q r : Ordering) : Decidable (Cyclic p q r) := inferInstanceAs (Decidable (_ ∧ _))

namespace Cyclic

variable {p q r p' q' r' : Ordering}

theorem rotate (h : Cyclic p q r) : Cyclic q r p := by
  obtain ⟨hp, hq, hr, hLevel⟩ := h
  exact ⟨hq, hr, hp, fun ⟨hq, hr, hp⟩ => hLevel ⟨hp, hq, hr⟩⟩

/-- Where the second of two criteria closes a circle, it does so alone: the first one is level all
the way around, or closes a circle itself. -/
theorem of_then (h : Cyclic (p.then p') (q.then q') (r.then r')) :
    Cyclic p q r ∨ (p = .eq ∧ q = .eq ∧ r = .eq ∧ Cyclic p' q' r') := by
  by_cases hLevel : p = .eq ∧ q = .eq ∧ r = .eq
  · obtain ⟨rfl, rfl, rfl⟩ := hLevel
    exact .inr ⟨rfl, rfl, rfl, h⟩
  · have hUp {o o' : Ordering} (hThen : o.then o' ≠ .gt) : o ≠ .gt := by
      rintro rfl
      exact hThen rfl
    exact .inl ⟨hUp h.1, hUp h.2.1, hUp h.2.2.1, hLevel⟩

end Cyclic

/-- A transitive order has no cycles. -/
theorem not_cyclic {α : Type} (cmp : α → α → Ordering) [Std.TransCmp cmp] (a b c : α) :
    ¬ Cyclic (cmp a b) (cmp b c) (cmp c a) := by
  rintro ⟨hab, hbc, hca, hLevel⟩
  replace hab := Ordering.isLE_iff_ne_gt.mpr hab
  replace hbc := Ordering.isLE_iff_ne_gt.mpr hbc
  replace hca := Ordering.isLE_iff_ne_gt.mpr hca
  exact hLevel ⟨Std.OrientedCmp.isLE_antisymm hab (Std.TransCmp.isLE_trans hbc hca),
    Std.OrientedCmp.isLE_antisymm hbc (Std.TransCmp.isLE_trans hca hab),
    Std.OrientedCmp.isLE_antisymm hca (Std.TransCmp.isLE_trans hab hbc)⟩

namespace Number

/-- Nothing but NaN is above positive infinity. -/
theorem compare_infinity {x : Number} (hNaN : x.isNaN = false) (h : x ≠ infinity) :
    x.compare infinity = .lt := by
  have hTop : infinity.scaled = unitsOf infinityPattern := rfl
  have hZero : unitsOf 0 < unitsOf infinityPattern := unitsOf_lt_unitsOf (by decide)
  have hLess : x.scaled < infinity.scaled := by
    rw [hTop, scaled, units]
    cases hSign : x.negative with
    | true =>
        rw [if_pos rfl]
        omega
    | false =>
        have hPattern : x.pattern ≠ infinityPattern := mt (eq_infinity hSign) h
        have hBelow : x.pattern < infinityPattern := by
          simp only [isNaN, decide_eq_false_iff_not] at hNaN
          omega
        exact Int.ofNat_lt.mpr (unitsOf_lt_unitsOf hBelow)
  have hNumber : infinity.isNaN = false := by decide
  simp only [compare, hNaN, hNumber]
  exact compareOfLessAndEq_eq_lt.mpr hLess

end Number

namespace Value

variable {a b c u v w : Value}

/-- The order of the texts of two values. -/
def compareText (v w : Value) : Ordering := Ord.compare v.render w.render

/-- Three values, none of them below the one before, the first not below the last, and not all of
them level. -/
def Cycle (a b c : Value) : Prop := Cyclic (a.compare b) (b.compare c) (c.compare a)

/-- Two values of one kind that are not ordered as their texts are, and one of another kind that has
a text between theirs. -/
structure Clash (u v w : Value) : Prop where
  same : u.kind = v.kind
  other : w.kind ≠ u.kind
  order : u.compare v ≠ u.compareText v
  between : (u.compareText w ≠ .gt ∧ w.compareText v ≠ .gt) ∨
    (v.compareText w ≠ .gt ∧ w.compareText u ≠ .gt)

/-- A clash of three values, whichever of them is the one between the others. -/
def Clashing (a b c : Value) : Prop := Clash a b c ∨ Clash b c a ∨ Clash c a b

/-- Three lists with no difference between their elements before a position. -/
def LevelBefore (position : Nat) (xs ys zs : Items) : Prop :=
  ∀ i < position, ∀ x y z : Value, xs[i]? = some x → ys[i]? = some y → zs[i]? = some z →
    x.compare y = .eq ∧ y.compare z = .eq ∧ z.compare x = .eq

/-- Three values that clash, or three lists of one length with tangled elements behind elements that
are level. These may be level themselves at the ends, and then the rest of the lists decides, so it
is part of the condition that the first list is not put before the last one from there on. -/
inductive Tangled : Value → Value → Value → Prop where
  | here {a b c : Value} (clash : Clashing a b c) : Tangled a b c
  | element {xs ys zs : Items} {i : Nat} {x y z : Value}
      (first : xs.length = ys.length) (second : ys.length = zs.length)
      (before : LevelBefore i xs ys zs)
      (hx : xs[i]? = some x) (hy : ys[i]? = some y) (hz : zs[i]? = some z)
      (inside : Tangled x y z) (behind : compareEach (xs.drop i) (zs.drop i) ≠ .lt) :
      Tangled (.list xs) (.list ys) (.list zs)

instance : Std.TransCmp compareText :=
  inferInstanceAs (Std.TransCmp (compareOn render))

theorem compareText_swap (v w : Value) : w.compareText v = (v.compareText w).swap :=
  Std.OrientedCmp.eq_swap

/-- If two values of a cycle are of one kind and the third is of another, they clash: the third is
ordered against the two by text, so that the two cannot be ordered by theirs. -/
theorem clash_of_cycle (h : Cycle a b c) (hSame : a.kind = b.kind) (hOther : c.kind ≠ a.kind) :
    Clash a b c := by
  have hbc : b.compare c = b.compareText c := compare_of_kind_ne (hSame ▸ hOther.symm)
  have hca : c.compare a = c.compareText a := compare_of_kind_ne hOther
  refine ⟨hSame, hOther, ?_, .inr ⟨hbc ▸ h.2.1, hca ▸ h.2.2.1⟩⟩
  intro hOrder
  rw [Cycle, hOrder, hbc, hca] at h
  exact not_cyclic compareText a b c h

/-- Three values that are not all lists close a cycle only by a clash. If all kinds differ, the order
is that of the texts, and if all are the same, it is that of null, of numbers or of texts. -/
theorem clashing_of_cycle (h : Cycle a b c)
    (hLeaf : a.length? = none ∨ b.length? = none ∨ c.length? = none) : Clashing a b c := by
  by_cases hab : a.kind = b.kind
  · by_cases hca : c.kind = a.kind
    · exfalso
      cases a <;> cases b <;> simp only [kind, reduceCtorEq] at hab <;>
        cases c <;> simp only [kind, reduceCtorEq] at hca
      · exact h.2.2.2 ⟨rfl, rfl, rfl⟩
      · exact not_cyclic Number.compare _ _ _ h
      · exact not_cyclic Ord.compare _ _ _ h
      · simp at hLeaf
    · exact .inl (clash_of_cycle h hab hca)
  · by_cases hbc : b.kind = c.kind
    · exact .inr (.inl (clash_of_cycle h.rotate hbc hab))
    · by_cases hca : c.kind = a.kind
      · exact .inr (.inr (clash_of_cycle h.rotate.rotate hca hbc))
      · rw [Cycle, compare_of_kind_ne hab, compare_of_kind_ne hbc, compare_of_kind_ne hca] at h
        exact absurd h (not_cyclic compareText a b c)

/-- Nothing differs before position `i + 1` just if the first elements are level and, in what follows
them, nothing differs before position `i`. -/
theorem levelBefore_succ_iff {i : Nat} {x y z : Value} {xs ys zs : Items} :
    LevelBefore (i + 1) (x :: xs) (y :: ys) (z :: zs) ↔
      (x.compare y = .eq ∧ y.compare z = .eq ∧ z.compare x = .eq) ∧ LevelBefore i xs ys zs := by
  constructor
  · intro h
    exact ⟨h 0 (Nat.zero_lt_succ i) x y z rfl rfl rfl,
      fun j hj => h (j + 1) (Nat.succ_lt_succ hj)⟩
  · rintro ⟨hHead, hTail⟩ j hj
    cases j with
    | zero =>
        rintro _ _ _ ⟨⟩ ⟨⟩ ⟨⟩
        exact hHead
    | succ j => exact hTail j (Nat.lt_of_succ_lt_succ hj)

/-- A circle through lists of one length is closed by the elements at the first position at which
they are not all level. -/
theorem exists_cycle_of_each {xs ys zs : Items} (hFirst : xs.length = ys.length)
    (hSecond : ys.length = zs.length)
    (h : Cyclic (compareEach xs ys) (compareEach ys zs) (compareEach zs xs)) :
    ∃ (i : Nat) (x y z : Value), xs[i]? = some x ∧ ys[i]? = some y ∧ zs[i]? = some z ∧
      Cycle x y z ∧ LevelBefore i xs ys zs := by
  induction xs generalizing ys zs with
  | nil =>
      cases ys with
      | nil => cases zs with
        | nil => exact absurd ⟨rfl, rfl, rfl⟩ h.2.2.2
        | cons z zs => cases hSecond
      | cons y ys => cases hFirst
  | cons x xs ih =>
      cases ys with
      | nil => cases hFirst
      | cons y ys => cases zs with
        | nil => cases hSecond
        | cons z zs =>
            rcases Cyclic.of_then h with hHead | ⟨hxy, hyz, hzx, hTail⟩
            · exact ⟨0, x, y, z, rfl, rfl, rfl, hHead, fun j hj => absurd hj (Nat.not_lt_zero j)⟩
            · obtain ⟨i, u, v, w, hu, hv, hw, hCycle, hBefore⟩ :=
                ih (Nat.succ.inj hFirst) (Nat.succ.inj hSecond) hTail
              exact ⟨i + 1, u, v, w, hu, hv, hw, hCycle,
                levelBefore_succ_iff.mpr ⟨⟨hxy, hyz, hzx⟩, hBefore⟩⟩

/-- Elements that are level decide nothing, so two lists are ordered as what is left of them behind
such elements. -/
theorem LevelBefore.compareEach_eq {xs ys zs : Items} {i : Nat} (h : LevelBefore i xs ys zs)
    (hFirst : xs.length = ys.length) (hSecond : ys.length = zs.length) :
    compareEach xs zs = compareEach (xs.drop i) (zs.drop i) := by
  induction i generalizing xs ys zs with
  | zero => rfl
  | succ i ih => cases xs with
    | nil => rfl
    | cons x xs => cases ys with
      | nil => cases hFirst
      | cons y ys => cases zs with
        | nil => cases hSecond
        | cons z zs =>
            obtain ⟨⟨_, _, hzx⟩, hTail⟩ := levelBefore_succ_iff.mp h
            have hxz : x.compare z = .eq := by rw [z.compare_swap x, hzx, Ordering.swap_eq]
            rw [compareEach, hxz, List.drop_succ_cons, List.drop_succ_cons]
            exact ih hTail (Nat.succ.inj hFirst) (Nat.succ.inj hSecond)

theorem lt_trans_of_not_cycle (h : ¬ Cycle a b c) (hab : a.compare b = .lt)
    (hbc : b.compare c = .lt) : a.compare c = .lt := by
  rw [Cycle, hab, hbc, a.compare_swap c] at h
  revert h
  cases a.compare c <;> decide

theorem ne_gt_trans_of_not_cycle (h : ¬ Cycle a b c) (hab : a.compare b ≠ .gt)
    (hbc : b.compare c ≠ .gt) : a.compare c ≠ .gt := by
  intro hac
  rw [Cycle, a.compare_swap c, hac] at h
  exact h ⟨hab, hbc, by decide, fun hLevel => by cases hLevel.2.2⟩

/-- The values of a cycle are tangled. Lists of different lengths close no cycle. In lists of one
length the elements that close it are a cycle of their own, and since the cycle leads on from the
last list to the first one, the elements from there on do not put the first one before the last. -/
theorem tangled_of_cycle (h : Cycle a b c) : Tangled a b c := by
  induction a generalizing b c with
  | null | number | text => exact .here (clashing_of_cycle h (.inl rfl))
  | list xs ih => cases b with
    | null | number | text => exact .here (clashing_of_cycle h (.inr (.inl rfl)))
    | list ys => cases c with
      | null | number | text => exact .here (clashing_of_cycle h (.inr (.inr rfl)))
      | list zs =>
          rcases Cyclic.of_then h with hLengths | ⟨hFirst, hSecond, _, hEach⟩
          · exact absurd hLengths (not_cyclic Ord.compare _ _ _)
          · have hxy := Std.LawfulEqCmp.compare_eq_iff_eq.mp hFirst
            have hyz := Std.LawfulEqCmp.compare_eq_iff_eq.mp hSecond
            obtain ⟨i, x, y, z, hx, hy, hz, hCycle, hBefore⟩ := exists_cycle_of_each hxy hyz hEach
            have hBehind : compareEach (xs.drop i) (zs.drop i) ≠ .lt := by
              intro hLess
              apply hEach.2.2.1
              rw [compareEach_swap zs fun v _ w => v.compare_swap w,
                hBefore.compareEach_eq hxy hyz, hLess, Ordering.swap_lt]
            exact .element hxy hyz hBefore hx hy hz
              (ih x (List.mem_of_getElem? hx) hCycle) hBehind

namespace Clash

theorem symm (h : Clash u v w) : Clash v u w := by
  refine ⟨h.same.symm, h.same ▸ h.other, ?_, h.between.symm⟩
  rw [u.compare_swap v, compareText_swap u v]
  intro hOrder
  exact h.order (Ordering.swap_inj.mp hOrder)

theorem compare_left (h : Clash u v w) : u.compare w = u.compareText w :=
  compare_of_kind_ne h.other.symm

theorem compare_right (h : Clash u v w) : w.compare u = w.compareText u := compare_of_kind_ne h.other

/-- If the two of one kind are the wrong way round and have one text all the same, the third has
this text, too, and the cycle leads the other way. -/
theorem cycle_of_between (h : Clash u v w) (hvw : v.compareText w ≠ .gt)
    (hwu : w.compareText u ≠ .gt) : Cycle u v w ∨ Cycle v u w := by
  have hTexts : ¬ Cyclic (u.compareText v) (v.compareText w) (w.compareText u) :=
    not_cyclic compareText u v w
  by_cases hDown : u.compare v = .gt
  · right
    have huv : u.compareText v ≠ .gt := by
      intro huv
      exact h.order (hDown.trans huv.symm)
    have hLevel : u.compareText v = .eq ∧ v.compareText w = .eq ∧ w.compareText u = .eq := by
      apply Decidable.byContradiction
      intro hLevel
      exact hTexts ⟨huv, hvw, hwu, hLevel⟩
    have hvu : v.compare u = .lt := by rw [u.compare_swap v, hDown, Ordering.swap_gt]
    rw [Cycle, hvu, h.compare_left, h.symm.compare_right, compareText_swap w u,
      compareText_swap v w, hLevel.2.1, hLevel.2.2]
    decide
  · left
    rw [Cycle, h.symm.compare_left, h.compare_right]
    refine ⟨hDown, hvw, hwu, ?_⟩
    rintro ⟨huv, hv, hw⟩
    have hText : v.compareText u = .eq := Std.TransCmp.eq_trans hv hw
    exact h.order (huv.trans (Std.OrientedCmp.eq_symm hText).symm)

/-- Every clash closes a cycle. -/
theorem cycle (h : Clash u v w) : Cycle u v w ∨ Cycle v u w := by
  rcases h.between with ⟨huw, hwv⟩ | ⟨hvw, hwu⟩
  · exact (h.symm.cycle_of_between huw hwv).symm
  · exact h.cycle_of_between hvw hwu

end Clash

/-- A clash closes a cycle, wherever the value between the two others is among the three. Which way
round it goes depends on the values. -/
theorem cycle_of_clashing (h : Clashing a b c) : Cycle a b c ∨ Cycle c b a := by
  rcases h with hClash | hClash | hClash
  · rcases hClash.cycle with hForward | hBackward
    · exact .inl hForward
    · exact .inr hBackward.rotate.rotate
  · rcases hClash.cycle with hForward | hBackward
    · exact .inl hForward.rotate.rotate
    · exact .inr hBackward
  · rcases hClash.cycle with hForward | hBackward
    · exact .inl hForward.rotate
    · exact .inr hBackward.rotate

/-- Two steps up that are part of a cycle do not lead up. -/
theorem not_lt_of_cycle (h : Cycle a b c ∨ Cycle c b a) (hbc : b.compare c = .lt) :
    a.compare c ≠ .lt := by
  rcases h with hForward | hBackward
  · intro hac
    apply hForward.2.2.1
    rw [a.compare_swap c, hac, Ordering.swap_lt]
  · exfalso
    apply hBackward.1
    rw [b.compare_swap c, hbc, Ordering.swap_lt]

/-- The first of three tangled values is not below the last one if the two steps between them lead
up. In lists this holds by the condition on the rest, since nothing before it decides. -/
theorem not_lt_of_tangled (h : Tangled a b c) (hbc : b.compare c = .lt) : a.compare c ≠ .lt := by
  cases h with
  | here clash => exact not_lt_of_cycle (cycle_of_clashing clash) hbc
  | @element xs _ zs _ _ _ _ first second before _ _ _ _ behind =>
      have hLengths : Ord.compare xs.length zs.length = .eq :=
        Std.LawfulEqCmp.compare_eq_iff_eq.mpr (first.trans second)
      rw [compare, hLengths, Ordering.eq_then, before.compareEach_eq first second]
      exact behind

/-- The first characters of two texts decide their order if they differ. No more than these need to
be known of the texts. -/
theorem compareText_of_head_lt {c d : Char} {cs ds : List Char} (hv : v.render.toList = c :: cs)
    (hw : w.render.toList = d :: ds) (h : c < d) : v.compareText w = .lt := by
  apply compareOfLessAndEq_eq_lt.mpr
  rw [String.lt_iff, hv, hw, List.cons_lt_cons_iff]
  exact .inl h

theorem exists_render_list_cons (xs : Items) :
    ∃ rest, (Value.list xs).render.toList = '[' :: rest := by
  rw [render, Text.bracketed, String.toList_append, String.toList_append]
  exact ⟨_, rfl⟩

/-- Every number has a text that comes before that of null, since a capital, a sign, a digit and the
`i` of infinity all come before its `n`. -/
theorem compareText_number_null (x : Number) : (Value.number x).compareText .null = .lt := by
  obtain ⟨c, rest, hText, hHead⟩ := x.exists_render_cons
  apply compareText_of_head_lt (v := .number x) hText rfl
  rcases hHead with hHead | ⟨rfl, _⟩
  · exact Char.lt_trans hHead (by decide)
  · decide

theorem compareText_list_null (xs : Items) : (Value.list xs).compareText .null = .lt := by
  obtain ⟨rest, hText⟩ := exists_render_list_cons xs
  exact compareText_of_head_lt hText rfl (by decide)

/-- Every number but positive infinity has a text that comes before those of all lists. This
includes NaN and negative infinity. -/
theorem compareText_number_list {x : Number} (h : x ≠ .infinity) (xs : Items) :
    (Value.number x).compareText (.list xs) = .lt := by
  obtain ⟨c, rest, hText, hHead⟩ := x.exists_render_cons
  obtain ⟨rest', hList⟩ := exists_render_list_cons xs
  apply compareText_of_head_lt (v := .number x) hText hList
  rcases hHead with hHead | ⟨_, hInfinity⟩
  · exact hHead
  · exact absurd hInfinity h

/-- The text of positive infinity comes behind those of all lists. -/
theorem compareText_list_infinity (xs : Items) :
    (Value.list xs).compareText (.number .infinity) = .lt := by
  obtain ⟨rest, hText⟩ := exists_render_list_cons xs
  have hInfinity : (Value.number .infinity).render.toList = ['i', 'n', 'f'] := by decide
  exact compareText_of_head_lt hText hInfinity (by decide)

theorem not_below_of_compareText_lt (h : v.compareText w = .lt) : ¬ w.compareText v ≠ .gt := by
  rw [compareText_swap v w, h]
  decide

/-- A list stands above a number and below another only if the second is positive infinity, and
disagrees with their order only if the first is NaN. -/
theorem Clash.nan_infinity {x y : Number} {zs : Items}
    (h : Clash (.number x) (.number y) (.list zs))
    (hBelow : (Value.number x).compareText (.list zs) ≠ .gt)
    (hAbove : (Value.list zs).compareText (.number y) ≠ .gt) :
    x.isNaN = true ∧ y = .infinity := by
  have hy : y = .infinity := by
    apply Decidable.byContradiction
    intro hy
    exact not_below_of_compareText_lt (compareText_number_list hy zs) hAbove
  subst hy
  refine ⟨?_, rfl⟩
  cases hNaN : x.isNaN with
  | true => rfl
  | false =>
      exfalso
      by_cases hx : x = .infinity
      · subst hx
        exact not_below_of_compareText_lt (compareText_list_infinity zs) hBelow
      · have hText : (Value.number x).compareText (.number .infinity) = .lt :=
          Std.TransCmp.lt_trans (compareText_number_list hx zs) (compareText_list_infinity zs)
        exact h.order ((Number.compare_infinity hNaN hx).trans hText.symm)

/-- Texts of lists all begin alike, so a number cannot stand between two of them. -/
theorem not_between_lists (z : Number) (xs ys : Items) :
    ¬ ((Value.list xs).compareText (.number z) ≠ .gt ∧
      (Value.number z).compareText (.list ys) ≠ .gt) := by
  rintro ⟨hBelow, hAbove⟩
  by_cases hz : z = .infinity
  · subst hz
    exact not_below_of_compareText_lt (compareText_list_infinity ys) hAbove
  · exact not_below_of_compareText_lt (compareText_number_list hz xs) hBelow

/-- The value between the two others by text is a text itself, but for a list between NaN and
positive infinity. Null comes after all numbers and lists, and all numbers but positive infinity
come before all lists. -/
theorem Clash.third (h : Clash u v w) : w.kind = .text ∨ w.kind = .list ∧
    ∃ x : Number, x.isNaN = true ∧ ((u = .number x ∧ v = .number .infinity) ∨
      (u = .number .infinity ∧ v = .number x)) := by
  have hSame := h.same
  have hOther := h.other
  cases u <;> cases v <;> simp only [kind, reduceCtorEq] at hSame
  case null => exact absurd rfl h.order
  case text s t => exact absurd rfl h.order
  case number x y => cases w with
    | number z => exact absurd rfl hOther
    | text s => exact .inl rfl
    | null =>
        exfalso
        rcases h.between with ⟨_, hAbove⟩ | ⟨_, hAbove⟩
        · exact not_below_of_compareText_lt (compareText_number_null y) hAbove
        · exact not_below_of_compareText_lt (compareText_number_null x) hAbove
    | list zs =>
        refine .inr ⟨rfl, ?_⟩
        rcases h.between with ⟨hBelow, hAbove⟩ | ⟨hBelow, hAbove⟩
        · obtain ⟨hNaN, rfl⟩ := h.nan_infinity hBelow hAbove
          exact ⟨x, hNaN, .inl ⟨rfl, rfl⟩⟩
        · obtain ⟨hNaN, rfl⟩ := h.symm.nan_infinity hBelow hAbove
          exact ⟨y, hNaN, .inr ⟨rfl, rfl⟩⟩
  case list xs ys => cases w with
    | list zs => exact absurd rfl hOther
    | text s => exact .inl rfl
    | null =>
        exfalso
        rcases h.between with ⟨_, hAbove⟩ | ⟨_, hAbove⟩
        · exact not_below_of_compareText_lt (compareText_list_null ys) hAbove
        · exact not_below_of_compareText_lt (compareText_list_null xs) hAbove
    | number z =>
        exfalso
        rcases h.between with hBetween | hBetween
        · exact not_between_lists z xs ys hBetween
        · exact not_between_lists z ys xs hBetween

end Value

/-- Of three values, each below the next one, the first is below the last just if they are not
tangled. Values are tangled where two numbers or two lists meet a value of another kind with a text
between theirs, while the two are not ordered as their texts are, and so are lists of one length
that come upon such elements first, unless the elements from there on put the first list before the
last one. The order that is not strict is transitive, too, for values that are not tangled. Values
that clash close a cycle, one way round or the other, and the one between the two of a kind is a
text, or else a list between NaN and positive infinity. -/
theorem compare_transitive_unless_tangled (a b c : Value) :
    (a.compare b = .lt → b.compare c = .lt →
      (a.compare c = .lt ↔ ¬ Value.Tangled a b c)) ∧
    (¬ Value.Tangled a b c →
      a.compare b ≠ .gt → b.compare c ≠ .gt → a.compare c ≠ .gt) ∧
    (Value.Clashing a b c → Value.Cycle a b c ∨ Value.Cycle c b a) ∧
    (Value.Clash a b c → c.kind = .text ∨ c.kind = .list ∧
      ∃ x : Number, x.isNaN = true ∧ ((a = .number x ∧ b = .number .infinity) ∨
        (a = .number .infinity ∧ b = .number x))) := by
  have hCycle (h : ¬ Value.Tangled a b c) : ¬ Value.Cycle a b c := mt Value.tangled_of_cycle h
  refine ⟨?_, ?_, Value.cycle_of_clashing, Value.Clash.third⟩
  · intro hab hbc
    constructor
    · intro hac hTangled
      exact Value.not_lt_of_tangled hTangled hbc hac
    · intro hTangled
      exact Value.lt_trans_of_not_cycle (hCycle hTangled) hab hbc
  · intro hTangled
    exact Value.ne_gt_trans_of_not_cycle (hCycle hTangled)

/-- Nine, ten and the text `9` close a cycle, but lists that begin with them are in order: nine and
the text are level, and the elements behind decide. -/
example :
    let a : Value := .list [.number (.ofNat 9), .number (.ofNat 0)]
    let b : Value := .list [.number (.ofNat 10), .number (.ofNat 0)]
    let c : Value := .list [.text "9", .number (.ofNat 1)]
    a.compare b = .lt ∧ b.compare c = .lt ∧ a.compare c = .lt := by
  decide +kernel

/-- The text `5` stands after ten and before nine, and a text may stand after a longer list and
before a shorter one. The empty list stands after NaN and before positive infinity. -/
theorem compare_not_transitive :
    ¬ ((Value.number (.ofNat 10)).compare (.text "5") = .lt →
      (Value.text "5").compare (.number (.ofNat 9)) = .lt →
        (Value.number (.ofNat 10)).compare (.number (.ofNat 9)) = .lt) ∧
    ¬ ((Value.list [.null, .null]).compare (.text "[o") = .lt →
      (Value.text "[o").compare (.list [.text "z"]) = .lt →
        (Value.list [.null, .null]).compare (.list [.text "z"]) = .lt) ∧
    ¬ ((Value.number .nan).compare (.list []) = .lt →
      (Value.list []).compare (.number .infinity) = .lt →
        (Value.number .nan).compare (.number .infinity) = .lt) := by
  decide +kernel

end DynamicValue
