import Mathlib.Data.List.Forall2
import DynamicValue.Proofs.Broadcast.Path
import DynamicValue.Value.Render

/-!
The pretty form as the full text of something smaller. The outline of a value is the value without
the inner elements of its long lists, at every depth, and with a gap in place of them. Once its
texts stand in quotes and its gaps are three dots, the outline is a value, and the pretty form is the
text in full of that value.
-/

namespace DynamicValue

/-- What is shown of a value. A gap stands in a list for the elements that are not shown. -/
inductive Outline where
  | null
  | number (x : Number)
  | text (s : String)
  | list (parts : List Outline)
  | gap

/-- The value with a gap in each list of eight elements and more, between its first two and its last
two elements. Shorter lists are whole. -/
inductive IsOutline : Value → Outline → Prop where
  | null : IsOutline .null .null
  | number (x : Number) : IsOutline (.number x) (.number x)
  | text (s : String) : IsOutline (.text s) (.text s)
  | whole {items : Items} {parts : List Outline} (short : items.length < 8)
      (each : List.Forall₂ IsOutline items parts) : IsOutline (.list items) (.list parts)
  | ends {first inner last : Items} {front back : List Outline}
      (long : 8 ≤ (first ++ inner ++ last).length) (firstTwo : first.length = 2)
      (lastTwo : last.length = 2) (before : List.Forall₂ IsOutline first front)
      (behind : List.Forall₂ IsOutline last back) :
      IsOutline (.list (first ++ inner ++ last)) (.list (front ++ .gap :: back))

/-- The index in a list of `len` elements of what its outline has at index `k`. -/
def shownIndex (len k : Nat) : Nat := if len < 8 ∨ k < 2 then k else len - 5 + k

/-- Different places of an outline show different elements. The gap has an index of its own, that of
an element it stands for. -/
theorem shownIndex_injective {len j k : Nat} (h : shownIndex len j = shownIndex len k) : j = k := by
  unfold shownIndex at h
  split at h <;> split at h <;> omega

section Abbreviate

variable {α β : Type} {part : α} {parts : List α} (marker : α)

theorem abbreviate_of_lt (h : parts.length < 8) : abbreviate marker parts = parts := if_pos h

theorem abbreviate_of_le (h : 8 ≤ parts.length) :
    abbreviate marker parts = parts.take 2 ++ marker :: parts.drop (parts.length - 2) :=
  if_neg (Nat.not_lt_of_le h)

/-- The two ends of a long list do not overlap. -/
theorem exists_ends (h : 8 ≤ parts.length) : ∃ first inner last : List α,
    parts = first ++ inner ++ last ∧ first.length = 2 ∧ last.length = 2 := by
  refine ⟨parts.take 2, (parts.drop 2).take (parts.length - 4),
    (parts.drop 2).drop (parts.length - 4), ?_, ?_, ?_⟩
  · rw [List.append_assoc, List.take_append_drop, List.take_append_drop]
  · simp
    omega
  · simp
    omega

/-- A long list is abbreviated to its two ends, however long it is between them. -/
theorem abbreviate_append {first inner last : List α} (hLong : 8 ≤ (first ++ inner ++ last).length)
    (hFirst : first.length = 2) (hLast : last.length = 2) :
    abbreviate marker (first ++ inner ++ last) = first ++ marker :: last := by
  have hEnd : (first ++ inner ++ last).length - 2 = (first ++ inner).length := by
    rw [List.length_append, hLast, Nat.add_sub_cancel]
  rw [abbreviate_of_le marker hLong, hEnd, List.drop_left, List.append_assoc,
    List.take_left' hFirst]

/-- Which parts are left out does not depend on what they are. -/
theorem map_abbreviate (f : α → β) (parts : List α) :
    (abbreviate marker parts).map f = abbreviate (f marker) (parts.map f) := by
  rcases Nat.lt_or_ge parts.length 8 with hShort | hLong
  · rw [abbreviate_of_lt marker hShort, abbreviate_of_lt (f marker) (by simpa)]
  · rw [abbreviate_of_le marker hLong, abbreviate_of_le (f marker) (by simpa)]
    simp

/-- Seven parts are the most that is left: a list of seven is whole, and a longer one has five. -/
theorem length_abbreviate_le (parts : List α) : (abbreviate marker parts).length ≤ 7 := by
  rcases Nat.lt_or_ge parts.length 8 with hShort | hLong
  · rw [abbreviate_of_lt marker hShort]
    omega
  · rw [abbreviate_of_le marker hLong]
    simp
    omega

/-- An abbreviated list has parts of the list, from before and from behind the marker. -/
theorem getElem?_abbreviate {k : Nat} (h : (abbreviate marker parts)[k]? = some part) :
    part = marker ∨ parts[shownIndex parts.length k]? = some part := by
  rcases Nat.lt_or_ge parts.length 8 with hShort | hLong
  · rw [abbreviate_of_lt marker hShort] at h
    rw [shownIndex, if_pos (.inl hShort)]
    exact .inr h
  rw [abbreviate_of_le marker hLong] at h
  have hFront : (parts.take 2).length = 2 := List.length_take_of_le (by omega)
  rcases Nat.lt_or_ge k 2 with hBefore | hRest
  · rw [List.getElem?_append_left (by omega), List.getElem?_take_of_lt hBefore] at h
    rw [shownIndex, if_pos (.inr hBefore)]
    exact .inr h
  rw [List.getElem?_append_right (by omega), hFront] at h
  rcases Nat.eq_or_lt_of_le hRest with rfl | hBehind
  · exact .inl (Option.some.inj h).symm
  · have hNext : k - 2 = k - 3 + 1 := by omega
    have hIndex : shownIndex parts.length k = parts.length - 2 + (k - 3) := by
      rw [shownIndex, if_neg (by omega)]
      omega
    rw [hNext, List.getElem?_cons_succ, List.getElem?_drop] at h
    rw [hIndex]
    exact .inr h

end Abbreviate

namespace Outline

mutual

/-- What the outline looks like: texts are in single quotes and a gap is three dots. -/
def drawn : Outline → Value
  | .null => .null
  | .number x => .number x
  | .text s => .text ("'" ++ s ++ "'")
  | .list parts => .list (drawnEach parts)
  | .gap => .text "..."

def drawnEach : List Outline → List Value
  | [] => []
  | part :: parts => part.drawn :: drawnEach parts

end

theorem drawnEach_eq_map (parts : List Outline) : drawnEach parts = parts.map drawn := by
  induction parts with
  | nil => rfl
  | cons part parts ih => rw [drawnEach, ih, List.map_cons]

/-- The part at an index. Only lists have parts. -/
def child? (t : Outline) (k : Nat) : Option Outline :=
  match t with
  | .list parts => parts[k]?
  | _ => none

/-- The part that a path leads to. -/
def at? (t : Outline) : Path → Option Outline
  | [] => some t
  | k :: path => (t.child? k).bind (·.at? path)

end Outline

namespace Value

variable {v w : Value} {t u : Outline}

mutual

/-- The outline of a value, list by list. -/
def outline : Value → Outline
  | .null => .null
  | .number x => .number x
  | .text s => .text s
  | .list items => .list (abbreviate .gap (outlineEach items))

def outlineEach : List Value → List Outline
  | [] => []
  | v :: vs => v.outline :: outlineEach vs

end

theorem outlineEach_eq_map (items : Items) : outlineEach items = items.map outline := by
  induction items with
  | nil => rfl
  | cons v vs ih => rw [outlineEach, ih, List.map_cons]

@[simp] theorem outline_list (items : Items) :
    (Value.list items).outline = .list (abbreviate .gap (items.map outline)) := by
  rw [outline, outlineEach_eq_map]

theorem outline_of_lt {items : Items} (h : items.length < 8) :
    (Value.list items).outline = .list (items.map outline) := by
  rw [outline_list, abbreviate_of_lt _ (by simpa)]

/-- The outline of a long list is those of its first two and last two elements, with one gap between
them. -/
theorem outline_append {first inner last : Items} (hLong : 8 ≤ (first ++ inner ++ last).length)
    (hFirst : first.length = 2) (hLast : last.length = 2) :
    (Value.list (first ++ inner ++ last)).outline =
      .list (first.map outline ++ .gap :: last.map outline) := by
  rw [outline_list, List.map_append, List.map_append, abbreviate_append _ (by simpa using hLong)
    (by simpa) (by simpa)]

/-- What is computed is an outline of the value. By induction on the value, where a list is taken
whole or by its two ends. -/
theorem isOutline_outline (v : Value) : IsOutline v v.outline := by
  induction v with
  | null => exact .null
  | number x => exact .number x
  | text s => exact .text s
  | list items ih =>
      have hEach {run : Items} (hRun : ∀ v ∈ run, v ∈ items) :
          List.Forall₂ IsOutline run (run.map outline) :=
        List.forall₂_map_right_iff.mpr (List.forall₂_same.mpr fun v hv => ih v (hRun v hv))
      rcases Nat.lt_or_ge items.length 8 with hShort | hLong
      · rw [outline_of_lt hShort]
        exact .whole hShort (hEach fun v hv => hv)
      · obtain ⟨first, inner, last, rfl, hFirst, hLast⟩ := exists_ends hLong
        rw [outline_append hLong hFirst hLast]
        exact .ends hLong hFirst hLast (hEach (by simp +contextual)) (hEach (by simp +contextual))

/-- There is one outline only. -/
theorem eq_outline (h : IsOutline v t) : t = v.outline := by
  induction v generalizing t with
  | null | number | text =>
      cases h
      rfl
  | list items ih =>
      have hEach {run : Items} {parts : List Outline} (hRun : ∀ v ∈ run, v ∈ items)
          (h : List.Forall₂ IsOutline run parts) : parts = run.map outline := by
        have hEqual : List.Forall₂ (fun v t => v.outline = t) run parts :=
          ((List.forall₂_and_left _ _).mpr ⟨hRun, h⟩).imp fun v t hv => (ih v hv.1 hv.2).symm
        rw [← List.forall₂_map_left_iff, List.forall₂_eq_eq_eq] at hEqual
        exact hEqual.symm
      cases h with
      | whole hShort each => rw [outline_of_lt hShort, hEach (fun v hv => hv) each]
      | ends hLong hFirst hLast before behind =>
          rw [outline_append hLong hFirst hLast, hEach (by simp +contextual) before,
            hEach (by simp +contextual) behind]

theorem isOutline_iff : IsOutline v t ↔ t = v.outline := by
  constructor
  · exact eq_outline
  · rintro rfl
    exact v.isOutline_outline

/-- The parts of a list are drawn and written after some have been left out, and may as well be
written first. -/
theorem pretty_eq_render_drawn (v : Value) : v.pretty = v.outline.drawn.render := by
  induction v with
  | null | number | text => rfl
  | list items ih =>
      rw [pretty, prettyEach_eq_map, outline_list, Outline.drawn, Outline.drawnEach_eq_map, render,
        renderEach_eq_map, map_abbreviate, map_abbreviate, List.map_map, List.map_map,
        List.map_congr_left ih]
      rfl

/-- The path in a value to what its outline has at a path. -/
def origin (v : Value) : Path → Path
  | [] => []
  | k :: path =>
    let i := shownIndex (v.length?.getD 0) k
    i :: ((v.child? i).getD v).origin path

/-- Different paths into an outline come from different paths into the value, also where they lead
to no part of it. -/
theorem origin_injective {p q : Path} (h : v.origin p = v.origin q) : p = q := by
  induction p generalizing v q with
  | nil => cases q with
    | nil => rfl
    | cons k q => cases h
  | cons j p ih => cases q with
    | nil => cases h
    | cons k q =>
        rw [origin, origin, List.cons.injEq] at h
        obtain rfl := shownIndex_injective h.1
        rw [ih h.2]

/-- Each part of an outline is a gap, or the outline of a part of the value. -/
theorem at?_outline {path : Path} (h : v.outline.at? path = some u) :
    u = .gap ∨ ∃ w, v.at? (v.origin path) = some w ∧ u = w.outline := by
  induction path generalizing v with
  | nil => exact .inr ⟨v, rfl, (Option.some.inj h).symm⟩
  | cons k path ih =>
      cases v with
      | null | number | text => cases h
      | list items =>
          rw [outline_list, Outline.at?, Option.bind_eq_some_iff] at h
          obtain ⟨part, hPart, hRest⟩ := h
          rcases getElem?_abbreviate _ hPart with rfl | hShown
          · -- no path leads through a gap
            cases path with
            | nil => exact .inl (Option.some.inj hRest).symm
            | cons => cases hRest
          · rw [List.length_map, List.getElem?_map, Option.map_eq_some_iff] at hShown
            obtain ⟨w, hw, rfl⟩ := hShown
            rcases ih hRest with hGap | ⟨x, hx, hOutline⟩
            · exact .inl hGap
            · refine .inr ⟨x, ?_, hOutline⟩
              simpa [origin, at?_list_cons, hw] using hx

/-- No list of an outline has more than seven parts. -/
theorem length_le_of_at?_outline {path : Path} {parts : List Outline}
    (h : v.outline.at? path = some (.list parts)) : parts.length ≤ 7 := by
  rcases at?_outline h with hGap | ⟨w, _, hOutline⟩
  · cases hGap
  · cases w with
    | null | number | text => cases hOutline
    | list items =>
        rw [outline_list, Outline.list.injEq] at hOutline
        rw [hOutline]
        exact length_abbreviate_le _ _

/-- A value without texts and without long lists is shown whole. -/
theorem pretty_eq_render (h : ∀ (path : Path) (w : Value), v.at? path = some w →
    w.kind ≠ .text ∧ ∀ n, w.length? = some n → n < 8) : v.pretty = v.render := by
  induction v with
  | null | number => rfl
  | text s => exact absurd rfl (h [] _ rfl).1
  | list items ih =>
      have hShort : items.length < 8 := (h [] _ rfl).2 _ rfl
      have hEach : items.map pretty = items.map render := by
        apply List.map_congr_left
        intro w hw
        obtain ⟨i, hi⟩ := List.mem_iff_getElem?.mp hw
        apply ih w hw
        intro path x hx
        apply h (i :: path)
        rw [at?_list_cons, hi]
        exact hx
      rw [pretty, prettyEach_eq_map, abbreviate_of_lt _ (by simpa), hEach, render,
        renderEach_eq_map]

end Value

open Value in
/-- The pretty form is the text in full of the outline, drawn with its texts in quotes and dots for
its gaps. There is one outline. Each of its parts at any depth is a gap or the outline of a part of
the value, different parts of it come from different parts of the value, and none of its lists has
more than seven. Values of one outline have one pretty form, and so it is with long lists of any
lengths that begin and end alike. Without texts and long lists, all of the value is shown. -/
theorem pretty_renders_outline (v : Value) :
    (∃ t, ∀ u, IsOutline v u ↔ u = t) ∧
    (∀ t, IsOutline v t →
      v.pretty = t.drawn.render ∧
      (∀ path u, t.at? path = some u →
        u = .gap ∨ ∃ w, v.at? (v.origin path) = some w ∧ IsOutline w u) ∧
      (∀ path parts, t.at? path = some (.list parts) → parts.length ≤ 7) ∧
      (∀ w, IsOutline w t → w.pretty = v.pretty) ∧
      ∀ first inner last other : Items, v = .list (first ++ inner ++ last) → first.length = 2 →
        last.length = 2 → 4 ≤ inner.length → 4 ≤ other.length →
        IsOutline (.list (first ++ other ++ last)) t) ∧
    (∀ p q, v.origin p = v.origin q → p = q) ∧
    ((∀ path w, v.at? path = some w → w.kind ≠ .text ∧ ∀ n, w.length? = some n → n < 8) →
      v.pretty = v.render) := by
  refine ⟨⟨v.outline, fun u => isOutline_iff⟩, ?_, fun p q => origin_injective, pretty_eq_render⟩
  simp only [isOutline_iff]
  rintro _ rfl
  refine ⟨v.pretty_eq_render_drawn, fun path u => at?_outline,
    fun path parts => length_le_of_at?_outline, ?_, ?_⟩
  · intro w hSame
    rw [pretty_eq_render_drawn, pretty_eq_render_drawn, hSame]
  · rintro first inner last other rfl hFirst hLast hInner hOther
    rw [outline_append (by simp; omega) hFirst hLast, outline_append (by simp; omega) hFirst hLast]

open Value in
/-- A text of three dots is told from a gap by its quotes. The last of the eight comes last in the
outline, too. -/
theorem pretty_renders_outline_nested :
    let v : Value := .list [.list (List.replicate 8 (.text "...")), .null]
    let dots : Outline := .text "..."
    let t : Outline := .list [.list [dots, dots, .gap, dots, dots], .null]
    let u : Value := .list [.list []]
    IsOutline v t ∧ v.pretty = "[['...', '...', ..., '...', '...'], null]" ∧
      (∃ w, v.at? [0, 7] = some w ∧ IsOutline w dots) ∧
      (∀ path w, u.at? path = some w → w.kind ≠ .text ∧ ∀ n, w.length? = some n → n < 8) ∧
      u.pretty = u.render := by
  intro v dots t u
  have hOutline : IsOutline v t := v.isOutline_outline
  obtain ⟨_, hShown, _⟩ := pretty_renders_outline v
  obtain ⟨hText, hParts, _⟩ := hShown t hOutline
  have hDrawn : t.drawn.render = "[['...', '...', ..., '...', '...'], null]" := by decide +kernel
  have hLast : ∃ w, v.at? [0, 7] = some w ∧ IsOutline w dots :=
    (hParts [0, 4] dots rfl).resolve_left Outline.noConfusion
  have hWhole : ∀ path w, u.at? path = some w →
      w.kind ≠ .text ∧ ∀ n, w.length? = some n → n < 8 := by
    rintro (_ | ⟨_ | i, _ | ⟨j, path⟩⟩) w hw <;> cases hw <;> simp [kind, u]
  exact ⟨hOutline, hText.trans hDrawn, hLast, hWhole, (pretty_renders_outline u).2.2.2 hWhole⟩

end DynamicValue
