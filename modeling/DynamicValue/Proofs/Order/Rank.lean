import DynamicValue.Proofs.Order.Transitivity

/-!
The order of values without texts and without NaN. Values of different kinds are ordered by what
they look like when printed, but the first character is enough to tell them apart: a digit or a sign,
the bracket of a list, the small letters of infinity and of null. So the kinds are ranked, positive
infinity behind all lists and every other number before them, and the order is a total one that
needs no text.
-/

namespace DynamicValue

namespace Value

/-- Null, a number other than NaN, or a list of such values. -/
inductive Plain : Value → Prop where
  | null : Plain .null
  | number {x : Number} (h : x.isNaN = false) : Plain (.number x)
  | list {items : Items} (h : ∀ v ∈ items, Plain v) : Plain (.list items)

/-- The place of a value among the values of other kinds. Numbers have two, one on either side of
the lists. Texts have a place of their own here, but are not ordered by it. -/
def rank : Value → Nat
  | .number x => if x = .infinity then 2 else 0
  | .list _ => 1
  | .null => 3
  | .text _ => 4

mutual

/-- Numbers by value, lists by length and then by the first elements that differ, and everything
else by rank. -/
def compareByRank : Value → Value → Ordering
  | .list xs, .list ys => (Ord.compare xs.length ys.length).then (compareEachByRank xs ys)
  | .number x, .number y => Ord.compare x.scaled y.scaled
  | a, b => Ord.compare a.rank b.rank

/-- The order of the first elements that differ. -/
def compareEachByRank : List Value → List Value → Ordering
  | x :: xs, y :: ys => (x.compareByRank y).then (compareEachByRank xs ys)
  | _, _ => .eq

end

variable {a b c : Value}

theorem compareByRank_of_kind_ne (h : a.kind ≠ b.kind) :
    a.compareByRank b = Ord.compare a.rank b.rank := by
  unfold compareByRank
  split
  · exact absurd rfl h
  · exact absurd rfl h
  · rfl

theorem rank_infinity : (Value.number .infinity).rank = 2 := by decide

theorem rank_number_of_ne {x : Number} (h : x ≠ .infinity) : (Value.number x).rank = 0 := if_neg h

theorem rank_number_cases (x : Number) : (Value.number x).rank = 0 ∨ (Value.number x).rank = 2 := by
  by_cases h : x = .infinity
  · exact .inr (h ▸ rank_infinity)
  · exact .inl (rank_number_of_ne h)

/-- The kind that has a rank. -/
def kindAt : Nat → Kind
  | 0 | 2 => .number
  | 1 => .list
  | 3 => .null
  | _ => .text

/-- The rank says what kind a value is of, though a kind may have two ranks. -/
theorem kindAt_rank (a : Value) : kindAt a.rank = a.kind := by
  cases a with
  | number x => rcases rank_number_cases x with h | h <;> rw [h] <;> rfl
  | null | text | list => rfl

/-- Values of different kinds are never level by rank. -/
theorem rank_ne_of_kind_ne (h : a.kind ≠ b.kind) : a.rank ≠ b.rank := by
  intro hRank
  apply h
  rw [← kindAt_rank a, hRank, kindAt_rank]

theorem compareText_number_null_eq_rank (x : Number) :
    (Value.number x).compareText .null = Ord.compare (Value.number x).rank Value.null.rank := by
  rw [compareText_number_null]
  rcases rank_number_cases x with h | h <;> rw [h] <;> rfl

/-- A number comes before a list by its text just if it does so by its rank. Only the text of
positive infinity comes behind the bracket that a list begins with; NaN is no exception here. -/
theorem compareText_number_list_eq_rank (x : Number) (ys : Items) :
    (Value.number x).compareText (.list ys) =
      Ord.compare (Value.number x).rank (Value.list ys).rank := by
  by_cases h : x = .infinity
  · rw [h, compareText_swap, compareText_list_infinity, rank_infinity]
    rfl
  · rw [compareText_number_list h, rank_number_of_ne h]
    rfl

theorem compareText_list_null_eq_rank (xs : Items) :
    (Value.list xs).compareText .null = Ord.compare (Value.list xs).rank Value.null.rank := by
  rw [compareText_list_null]
  rfl

namespace Plain

theorem of_getElem? {items : Items} {i : Nat} (h : (Value.list items).Plain)
    (hElement : items[i]? = some a) : a.Plain := by
  cases h with
  | list hEach => exact hEach a (List.mem_of_getElem? hElement)

/-- All parts of a plain value are plain, at any depth. -/
theorem of_at? (ha : a.Plain) {path : Path} {x : Value} (h : a.at? path = some x) : x.Plain := by
  induction path generalizing a with
  | nil =>
      cases h
      exact ha
  | cons i path ih => cases ha with
    | list hEach =>
        rw [at?_list_cons, Option.bind_eq_some_iff] at h
        obtain ⟨v, hv, hPath⟩ := h
        exact ih (of_getElem? (.list hEach) hv) hPath
    | null | number => cases h

/-- The first characters of two texts are ordered as the ranks of what is printed. -/
theorem compareText_eq_rank (ha : a.Plain) (hb : b.Plain) (hKind : a.kind ≠ b.kind) :
    a.compareText b = Ord.compare a.rank b.rank := by
  cases ha with
  | null => cases hb with
    | null => exact absurd rfl hKind
    | number => rw [compareText_swap, compareText_number_null_eq_rank, Nat.compare_swap]
    | list => rw [compareText_swap, compareText_list_null_eq_rank, Nat.compare_swap]
  | number => cases hb with
    | null => exact compareText_number_null_eq_rank _
    | number => exact absurd rfl hKind
    | list => exact compareText_number_list_eq_rank _ _
  | list => cases hb with
    | null => exact compareText_list_null_eq_rank _
    | number => rw [compareText_swap, compareText_number_list_eq_rank, Nat.compare_swap]
    | list => exact absurd rfl hKind

theorem compare_eq_of_kind_ne (ha : a.Plain) (hb : b.Plain) (h : a.kind ≠ b.kind) :
    a.compare b = a.compareByRank b := by
  rw [compare_of_kind_ne h, compareByRank_of_kind_ne h]
  exact compareText_eq_rank ha hb h

/-- If the elements of two lists are ordered by rank, each against each, the lists are. -/
theorem compareEach_eq {xs ys : Items}
    (h : ∀ x ∈ xs, ∀ y ∈ ys, x.compare y = x.compareByRank y) :
    compareEach xs ys = compareEachByRank xs ys := by
  induction xs generalizing ys with
  | nil => cases ys <;> rfl
  | cons x xs ih => cases ys with
    | nil => rfl
    | cons y ys =>
        have hTail : compareEach xs ys = compareEachByRank xs ys :=
          ih fun v hv w hw => h v (List.mem_cons_of_mem x hv) w (List.mem_cons_of_mem y hw)
        rw [compareEach, compareEachByRank, h x List.mem_cons_self y List.mem_cons_self, hTail]

/-- Without texts and NaN the order looks at kinds, values and lengths only. -/
theorem compare_eq_compareByRank (ha : a.Plain) (hb : b.Plain) :
    a.compare b = a.compareByRank b := by
  induction ha generalizing b with
  | null => cases hb with
    | null => rfl
    | number hy => exact compare_eq_of_kind_ne .null (.number hy) (by simp [kind])
    | list hys => exact compare_eq_of_kind_ne .null (.list hys) (by simp [kind])
  | number hx => cases hb with
    | null => exact compare_eq_of_kind_ne (.number hx) .null (by simp [kind])
    | number hy => rw [compare, compareByRank, Number.compare, hx, hy]
    | list hys => exact compare_eq_of_kind_ne (.number hx) (.list hys) (by simp [kind])
  | list hxs ih => cases hb with
    | null => exact compare_eq_of_kind_ne (.list hxs) .null (by simp [kind])
    | number hy => exact compare_eq_of_kind_ne (.list hxs) (.number hy) (by simp [kind])
    | list hys =>
        rw [compare, compareByRank, compareEach_eq fun x hx y hy => ih x hx (hys y hy)]

/-- Values of different kinds have different texts. -/
theorem not_sharesText (ha : a.Plain) (hb : b.Plain) : ¬ a.SharesText b := by
  rintro ⟨path, x, y, hx, hy, hKind, hText⟩
  have hLevel : x.compareText y = .eq := by
    rw [compareText, hText]
    exact Std.ReflCmp.compare_self
  rw [compareText_eq_rank (ha.of_at? hx) (hb.of_at? hy) hKind] at hLevel
  exact rank_ne_of_kind_ne hKind (Std.LawfulEqCmp.compare_eq_iff_eq.mp hLevel)

/-- Plain values are level only if they are equal, as no two of different kinds share a text. -/
theorem compare_eq_iff_equals (ha : a.Plain) (hb : b.Plain) :
    a.compare b = .eq ↔ a.equals b = true := by
  constructor
  · intro h
    exact (equals_iff_not_sharesText h).mpr (not_sharesText ha hb)
  · exact compare_eq_of_equals

/-- Of three values that clash the third is a text, or else one of the first two is NaN. -/
theorem not_clash (ha : a.Plain) (hb : b.Plain) (hc : c.Plain) : ¬ Clash a b c := by
  intro h
  rcases h.third with hText | ⟨_, x, hNaN, ⟨rfl, _⟩ | ⟨_, rfl⟩⟩
  · cases hc <;> cases hText
  · cases ha with
    | number hx => simp [hx] at hNaN
  · cases hb with
    | number hx => simp [hx] at hNaN

/-- Plain values do not clash, at whatever depth, so that nothing in them can be tangled. -/
theorem not_tangled (ha : a.Plain) (hb : b.Plain) (hc : c.Plain) : ¬ Tangled a b c := by
  intro h
  induction h with
  | here clash =>
      -- a clash is of three values in this order, and any of the three may come first
      rcases clash with hClash | hClash | hClash
      · exact not_clash ha hb hc hClash
      · exact not_clash hb hc ha hClash
      · exact not_clash hc ha hb hClash
  | element _ _ _ hx hy hz _ _ ih =>
      exact ih (ha.of_getElem? hx) (hb.of_getElem? hy) (hc.of_getElem? hz)

theorem not_cycle (ha : a.Plain) (hb : b.Plain) (hc : c.Plain) : ¬ Cycle a b c :=
  mt tangled_of_cycle (not_tangled ha hb hc)

end Plain

end Value

/-- On values without texts and NaN, at any depth, the order is the one by rank, which looks at no
text. There it is total: two values are level just if they are equal, exchanging them reverses it,
one of them is not above the other, and it is transitive, strictly and not. -/
theorem compare_by_rank_total {a b c : Value} (ha : a.Plain) (hb : b.Plain) (hc : c.Plain) :
    a.compare b = a.compareByRank b ∧
    (a.compare b = .eq ↔ a.equals b = true) ∧
    b.compare a = (a.compare b).swap ∧
    (a.compare b ≠ .gt ∨ b.compare a ≠ .gt) ∧
    (a.compare b = .lt → b.compare c = .lt → a.compare c = .lt) ∧
    (a.compare b ≠ .gt → b.compare c ≠ .gt → a.compare c ≠ .gt) := by
  have hCycle := Value.Plain.not_cycle ha hb hc
  refine ⟨ha.compare_eq_compareByRank hb, ha.compare_eq_iff_equals hb, a.compare_swap b, ?_,
    Value.lt_trans_of_not_cycle hCycle, Value.ne_gt_trans_of_not_cycle hCycle⟩
  rw [a.compare_swap b]
  cases a.compare b <;> decide

/-- Between negative zero and positive infinity there is a list, also where all three are
elements. -/
theorem compare_by_rank_total_elements :
    let a : Value := .list [.number (.ofPattern true 0)]
    let b : Value := .list [.list []]
    let c : Value := .list [.number .infinity]
    (a.Plain ∧ b.Plain ∧ c.Plain) ∧
      a.compare b = .lt ∧ b.compare c = .lt ∧ a.compare c = .lt ∧ a.equals b = false := by
  intro a b c
  have ha : a.Plain := .list (by simpa using .number (by decide))
  have hb : b.Plain := .list (by simpa using .list (by simp))
  have hc : c.Plain := .list (by simpa using .number (by decide))
  obtain ⟨hFirst, hEquals, _, _, hTrans, _⟩ := compare_by_rank_total ha hb hc
  obtain ⟨hSecond, _⟩ := compare_by_rank_total hb hc ha
  have hab : a.compare b = .lt := hFirst.trans rfl
  have hbc : b.compare c = .lt := hSecond.trans rfl
  refine ⟨⟨ha, hb, hc⟩, hab, hbc, hTrans hab hbc, ?_⟩
  rw [hab] at hEquals
  simpa using hEquals

end DynamicValue
