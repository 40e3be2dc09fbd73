import DynamicValue.Proofs.Equality.Canonical
import DynamicValue.Proofs.Number.Reading
import DynamicValue.Proofs.Text.Quoted

/-!
The diagnostic text as an encoding of values. Whatever stands behind the text of a value, it can be
told where the text ends and, up to equality, which value it is the text of: the first letters give
the kind, a number ends at the first parenthesis, a text at the first quote that is not escaped, and
behind each element of a list stands a comma or a bracket.
-/

namespace DynamicValue

/-- The characters of a number are not those that stand behind it. -/
theorem Number.render_append_inj {x y : Number} {rest rest' : List Char}
    (h : x.render.toList ++ ')' :: rest = y.render.toList ++ ')' :: rest') :
    x.equals y = true ∧ rest = rest' := by
  have hTaken (z : Number) (rest : List Char) :
      (z.render.toList ++ ')' :: rest).takeWhile isNumeral = z.render.toList := by
    rw [List.takeWhile_append_of_pos fun c => isNumeral_of_mem_render]
    exact List.append_nil _
  have hText : x.render.toList = y.render.toList := by rw [← hTaken x rest, h, hTaken y rest']
  rw [hText] at h
  refine ⟨(render_eq_iff x y).mp (String.toList_inj.mp hText), ?_⟩
  exact List.tail_eq_of_cons_eq (List.append_cancel_left h)

/-- Parts in brackets, character by character: the first one stands alone, and each other one behind
a comma and a space. -/
theorem Text.toList_bracketed_cons (part : String) (parts : List String) :
    (bracketed (part :: parts)).toList =
      '[' :: (part.toList ++ (parts.flatMap (fun next => ',' :: ' ' :: next.toList) ++ [']'])) := by
  have hJoined : (", ".intercalate (part :: parts)).toList =
      part.toList ++ parts.flatMap fun next => ',' :: ' ' :: next.toList := by
    induction parts generalizing part with
    | nil => simp
    | cons next parts ih =>
        rw [String.intercalate_cons_cons, String.toList_append, String.toList_append, ih next]
        simp
  rw [bracketed, String.toList_append, String.toList_append, hJoined]
  simp

namespace Value

variable {v w : Value} {rest rest' : List Char}

theorem toList_inspect_null : Value.null.inspect.toList = ['N', 'u', 'l', 'l'] := rfl

theorem toList_inspect_number (x : Number) :
    (Value.number x).inspect.toList =
      'N' :: 'u' :: 'm' :: 'b' :: 'e' :: 'r' :: '(' :: (x.render.toList ++ [')']) := by
  simp [inspect]

theorem toList_inspect_text (s : String) :
    (Value.text s).inspect.toList =
      'S' :: 't' :: 'r' :: '(' :: ((Text.quote s).toList ++ [')']) := by
  simp [inspect]

theorem toList_inspect_list (items : Items) :
    (Value.list items).inspect.toList =
      'L' :: 'i' :: 's' :: 't' :: '(' :: (items.inspect.toList ++ [')']) := by
  simp [inspect, Items.inspect, inspectEach_eq_map]

/-- The first letters give the kind. -/
theorem kind_eq_of_inspect_append (h : v.inspect.toList ++ rest = w.inspect.toList ++ rest') :
    v.kind = w.kind := by
  cases v <;> cases w <;>
    simp [toList_inspect_null, toList_inspect_number, toList_inspect_text, toList_inspect_list,
      kind] at h ⊢

/-- Where one text begins with the text of either value, the values are equal, and the same text
follows. -/
def Separates (v w : Value) : Prop :=
  ∀ rest rest' : List Char, v.inspect.toList ++ rest = w.inspect.toList ++ rest' →
    v.equals w = true ∧ rest = rest'

/-- Lists are equal if their first elements are and the lists behind these are, so that an induction
can go on. -/
theorem equals_list_cons (x y : Value) (xs ys : Items) :
    (Value.list (x :: xs)).equals (.list (y :: ys)) =
      (x.equals y && (Value.list xs).equals (.list ys)) := by
  simp [equals, equalsEach, Bool.and_left_comm]

/-- No value is written with a bracket in front. -/
theorem inspect_ne_bracket (v : Value) (rest rest' : List Char) :
    v.inspect.toList ++ rest ≠ ']' :: rest' := by
  cases v with
  | null => simp [toList_inspect_null]
  | number x => simp [toList_inspect_number]
  | text s => simp [toList_inspect_text]
  | list items => simp [toList_inspect_list]

end Value

namespace Items

open Value

variable {xs ys : Items} {rest rest' : List Char}

/-- The elements behind the first one, as the text of a list has them. -/
def inspectBehind (items : Items) : List Char :=
  items.flatMap fun v => ',' :: ' ' :: v.inspect.toList

theorem inspectBehind_cons (v : Value) (items : Items) :
    inspectBehind (v :: items) = ',' :: ' ' :: (v.inspect.toList ++ inspectBehind items) := rfl

theorem toList_inspect_nil : inspect [] = "[]" := rfl

theorem toList_inspect_cons (v : Value) (items : Items) :
    (inspect (v :: items)).toList = '[' :: (v.inspect.toList ++ (inspectBehind items ++ [']'])) := by
  rw [inspect, List.map_cons, Text.toList_bracketed_cons, List.flatMap_map]
  rfl

/-- A comma says that an element follows, a bracket that none does. -/
theorem inspectBehind_inj (hEach : ∀ x ∈ xs, ∀ y, Separates x y)
    (h : inspectBehind xs ++ ']' :: rest = inspectBehind ys ++ ']' :: rest') :
    (Value.list xs).equals (.list ys) = true ∧ rest = rest' := by
  induction xs generalizing ys with
  | nil => cases ys with
    | nil => exact ⟨rfl, List.tail_eq_of_cons_eq h⟩
    | cons y ys => simp [inspectBehind] at h
  | cons x xs ih => cases ys with
    | nil => simp [inspectBehind] at h
    | cons y ys =>
        simp only [inspectBehind_cons, List.cons_append, List.append_assoc, List.cons.injEq,
          true_and] at h
        obtain ⟨hHead, hTail⟩ := hEach x (by simp) y _ _ h
        obtain ⟨hEquals, hRest⟩ := ih (fun v hv => hEach v (by simp [hv])) hTail
        rw [equals_list_cons, hHead, hEquals]
        exact ⟨rfl, hRest⟩

/-- If the elements are told apart by their texts, and where these end, so are lists of them. The
bracket at the end is told from the comma ahead of an element. -/
theorem inspect_append_inj (hEach : ∀ x ∈ xs, ∀ y, Separates x y)
    (h : xs.inspect.toList ++ rest = ys.inspect.toList ++ rest') :
    (Value.list xs).equals (.list ys) = true ∧ rest = rest' := by
  cases xs with
  | nil => cases ys with
    | nil => exact ⟨rfl, List.append_cancel_left h⟩
    | cons y ys =>
        rw [toList_inspect_cons, toList_inspect_nil] at h
        simp only [List.cons_append, List.append_assoc] at h
        exact absurd (List.tail_eq_of_cons_eq h).symm (y.inspect_ne_bracket _ _)
  | cons x xs => cases ys with
    | nil =>
        rw [toList_inspect_cons, toList_inspect_nil] at h
        simp only [List.cons_append, List.append_assoc] at h
        exact absurd (List.tail_eq_of_cons_eq h) (x.inspect_ne_bracket _ _)
    | cons y ys =>
        simp only [toList_inspect_cons, List.cons_append, List.append_assoc, List.cons.injEq,
          true_and] at h
        obtain ⟨hHead, hTail⟩ := hEach x (by simp) y _ _ h
        obtain ⟨hEquals, hRest⟩ := inspectBehind_inj (fun v hv => hEach v (by simp [hv])) hTail
        rw [equals_list_cons, hHead, hEquals]
        exact ⟨rfl, hRest⟩

end Items

namespace Value

/-- No text can be read as that of two values that are not equal, nor with two ends. -/
theorem separates (v w : Value) : Separates v w := by
  induction v generalizing w with
  | null =>
      intro rest rest' h
      have hKind := kind_eq_of_inspect_append h
      cases w <;> simp only [kind, reduceCtorEq] at hKind
      exact ⟨rfl, List.append_cancel_left h⟩
  | number x =>
      intro rest rest' h
      have hKind := kind_eq_of_inspect_append h
      cases w <;> simp only [kind, reduceCtorEq] at hKind
      simp only [toList_inspect_number, List.cons_append, List.append_assoc, List.nil_append,
        List.cons.injEq, true_and] at h
      exact Number.render_append_inj h
  | text s =>
      intro rest rest' h
      have hKind := kind_eq_of_inspect_append h
      cases w <;> simp only [kind, reduceCtorEq] at hKind
      simp only [toList_inspect_text, List.cons_append, List.append_assoc, List.nil_append,
        List.cons.injEq, true_and] at h
      obtain ⟨rfl, hRest⟩ := Text.quote_append_inj h
      exact ⟨equals_refl _, List.tail_eq_of_cons_eq hRest⟩
  | list xs ih =>
      intro rest rest' h
      have hKind := kind_eq_of_inspect_append h
      cases w <;> simp only [kind, reduceCtorEq] at hKind
      simp only [toList_inspect_list, List.cons_append, List.append_assoc, List.nil_append,
        List.cons.injEq, true_and] at h
      obtain ⟨hEquals, hRest⟩ := Items.inspect_append_inj ih h
      exact ⟨hEquals, List.tail_eq_of_cons_eq hRest⟩

/-- Values have one diagnostic text just if they are equal. -/
theorem inspect_eq_iff (v w : Value) : v.inspect = w.inspect ↔ v.equals w = true := by
  constructor
  · intro h
    exact (separates v w [] [] (by rw [h])).1
  · exact eq_of_equals inspect_canonical

end Value

/-- The brackets and commas of a list bring no line break into it. -/
theorem Items.not_mem_inspect {items : Items}
    (h : ∀ v ∈ items, '\n' ∉ v.inspect.toList) : '\n' ∉ items.inspect.toList := by
  cases items with
  | nil => decide
  | cons v items =>
      have hBehind : '\n' ∉ inspectBehind items := by
        simp only [inspectBehind, List.mem_flatMap, not_exists, not_and]
        intro w hMem
        simpa using h w (by simp [hMem])
      simpa [toList_inspect_cons, hBehind] using h v (by simp)

/-- The diagnostic text of a value stays on one line. -/
theorem Value.not_mem_inspect (v : Value) : '\n' ∉ v.inspect.toList := by
  induction v with
  | null => decide
  | number x =>
      have hNumber : '\n' ∉ x.render.toList := by
        intro hMem
        exact absurd (Number.isNumeral_of_mem_render hMem) (by decide)
      simpa [toList_inspect_number] using hNumber
  | text s => simpa [toList_inspect_text] using Text.not_mem_quote s
  | list items ih => simpa [toList_inspect_list] using Items.not_mem_inspect ih

end DynamicValue
