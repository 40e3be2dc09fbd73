import DynamicValue.Proofs.Text.Unambiguous

/-!
Diagnostics of lists over several lines. The text of an element has no line break of its own, so
there is a line for each element and one for each bracket, and a list is known by its lines.
-/

namespace DynamicValue

namespace Text

/-- What stands between the line breaks of a text. -/
def lines (s : String) : List String := (s.toList.splitOn '\n').map String.ofList

/-- Texts without line breaks are the lines of what they are joined to by line breaks. -/
theorem lines_intercalate {parts : List String} (hEach : ∀ part ∈ parts, '\n' ∉ part.toList)
    (hSome : parts ≠ []) : lines ("\n".intercalate parts) = parts := by
  have hBreaks : ∀ chars ∈ parts.map String.toList, '\n' ∉ chars := by
    simpa using hEach
  have hBreak : "\n".toList = ['\n'] := rfl
  rw [lines, String.toList_intercalate, hBreak, List.splitOn_intercalate '\n' hBreaks (by simpa)]
  simp

/-- A line is passed over as it is once it has begun. -/
theorem indentFrom_append {chars : List Char} (h : '\n' ∉ chars) (rest : List Char) :
    indentFrom false (chars ++ rest) = chars ++ indentFrom false rest := by
  induction chars with
  | nil => rfl
  | cons c chars ih =>
      have hHead : (c == '\n') = false := beq_eq_false_iff_ne.mpr fun hBreak => h (by simp [hBreak])
      have hTail : '\n' ∉ chars := fun hMem => h (by simp [hMem])
      rw [List.cons_append, indentFrom, hHead, ih hTail]
      rfl

/-- Only the first line of what has no other line is indented. -/
theorem indent_line {part : String} (h : '\n' ∉ part.toList) :
    indent (part ++ ",\n") = "    " ++ part ++ ",\n" := by
  have hFirst {chars : List Char} (hSome : chars ≠ []) :
      indentFrom true chars = List.replicate 4 ' ' ++ indentFrom false chars := by
    cases chars with
    | nil => exact absurd rfl hSome
    | cons c rest => rfl
  apply String.toList_inj.mp
  rw [indent, String.toList_ofList, String.toList_append, hFirst (by simp), indentFrom_append h]
  simp [indentFrom]

theorem map_indent {parts : List String} (hEach : ∀ part ∈ parts, '\n' ∉ part.toList) :
    parts.map (fun part => indent (part ++ ",\n")) = parts.map fun part => "    " ++ part ++ ",\n" :=
  List.map_congr_left fun part hMem => indent_line (hEach part hMem)

/-- The lines of a list of parts: a bracket at each end, and the parts, indented, between them. -/
def listLines (parts : List String) : List String :=
  "[" :: parts.map (fun part => "    " ++ part ++ ",") ++ ["]"]

/-- The parts over several lines are the lines joined by line breaks. There is no line break behind
the last bracket. -/
theorem listed_expanded {parts : List String} (hEach : ∀ part ∈ parts, '\n' ∉ part.toList)
    (hSome : parts ≠ []) : listed .expanded parts = "\n".intercalate (listLines parts) := by
  have hJoin (parts : List String) :
      "\n".intercalate (parts.map (fun part => "    " ++ part ++ ",") ++ ["]"]) =
        String.join (parts.map fun part => "    " ++ part ++ ",\n") ++ "]" := by
    induction parts with
    | nil => simp
    | cons part parts ih =>
        rw [List.map_cons, List.cons_append, String.intercalate_cons_of_ne_nil (by simp), ih]
        simp [String.append_assoc]
  rw [listLines, List.cons_append, String.intercalate_cons_of_ne_nil (by simp), hJoin, listed]
  simp only [List.isEmpty_iff, hSome, if_false, map_indent hEach]
  rfl

/-- Neither brackets nor indentation bring a line break into parts that have none. -/
theorem not_mem_of_mem_listLines {parts : List String}
    (hEach : ∀ part ∈ parts, '\n' ∉ part.toList) : ∀ line ∈ listLines parts, '\n' ∉ line.toList := by
  intro line hMem
  simp only [listLines, List.cons_append, List.mem_cons, List.mem_append, List.mem_map,
    List.not_mem_nil, or_false] at hMem
  rcases hMem with rfl | ⟨part, hPart, rfl⟩ | rfl
  · decide
  · simpa using hEach part hPart
  · decide

/-- What is written over several lines is read off line by line. The list without parts is written
on one line and is left out here. -/
theorem lines_listed_expanded {parts : List String} (hEach : ∀ part ∈ parts, '\n' ∉ part.toList)
    (hSome : parts ≠ []) : lines (listed .expanded parts) = listLines parts := by
  rw [listed_expanded hEach hSome]
  exact lines_intercalate (not_mem_of_mem_listLines hEach) (by simp [listLines])

/-- The lines give the parts back, since what was put around them is the same for each. -/
theorem listLines_inj {parts others : List String} (h : listLines parts = listLines others) :
    parts = others := by
  have hInner := List.append_cancel_right (List.tail_eq_of_cons_eq h)
  apply (List.map_inj_right _).mp hInner
  intro part other hLine
  simpa using hLine

/-- The parts can be read off the text. A list without parts has both brackets on one line. -/
theorem listed_expanded_inj {parts others : List String}
    (hEach : ∀ part ∈ parts, '\n' ∉ part.toList) (hOther : ∀ part ∈ others, '\n' ∉ part.toList)
    (h : listed .expanded parts = listed .expanded others) : parts = others := by
  have hEmpty : lines (listed .expanded []) = ["[]"] := by decide
  have hLines := congrArg lines h
  by_cases hParts : parts = [] <;> by_cases hOthers : others = []
  · rw [hParts, hOthers]
  · rw [hParts, hEmpty, lines_listed_expanded hOther hOthers] at hLines
    simp [listLines] at hLines
  · rw [hOthers, hEmpty, lines_listed_expanded hEach hParts] at hLines
    simp [listLines] at hLines
  · rw [lines_listed_expanded hEach hParts, lines_listed_expanded hOther hOthers] at hLines
    exact listLines_inj hLines

end Text

namespace Value

/-- A layout makes no difference to a value. -/
theorem inspectIn_eq (layout : Layout) (v : Value) : v.inspectIn layout = v.inspect := by
  have hEach (items : Items) (h : ∀ v ∈ items, v.inspectIn .compact = v.inspect) :
      inspectEachIn .compact items = inspectEach items := by
    induction items with
    | nil => rfl
    | cons v items ih =>
        rw [inspectEachIn, inspectEach, h v (by simp), ih fun w hw => h w (by simp [hw])]
  induction v generalizing layout with
  | null | number | text => rfl
  | list items ih =>
      rw [inspectIn, inspect, hEach items fun v hv => ih v hv .compact]
      rfl

end Value

namespace Items

theorem inspectIn_eq (layout : Layout) (items : Items) :
    items.inspectIn layout = Text.listed layout (items.map Value.inspect) := by
  rw [inspectIn]
  congr 2
  exact funext fun v => v.inspectIn_eq layout

theorem not_mem_map_inspect (items : Items) :
    ∀ part ∈ items.map Value.inspect, '\n' ∉ part.toList := by
  intro part hMem
  obtain ⟨v, _, rfl⟩ := List.mem_map.mp hMem
  exact v.not_mem_inspect

/-- Lists have the same texts of elements just if they are equal. -/
theorem map_inspect_eq_iff (items others : Items) :
    items.map Value.inspect = others.map Value.inspect ↔ items.same others = true := by
  rw [same_eq]
  constructor
  · intro h
    rw [← Value.inspect_eq_iff, Value.inspect, Value.inspect, Value.inspectEach_eq_map, h,
      Value.inspectEach_eq_map]
  · intro h
    rw [← Value.canonical_eq_iff, Value.canonical_list, Value.canonical_list, Value.list.injEq] at h
    have hEach (items : Items) : (items.map Value.canonical).map Value.inspect =
        items.map Value.inspect :=
      Value.map_map_canonical fun v _ => v.inspect_canonical
    rw [← hEach items, h, hEach others]

/-- Lists have the same text over several lines just if they are equal. -/
theorem inspectIn_expanded_eq_iff (items others : Items) :
    items.inspectIn .expanded = others.inspectIn .expanded ↔ items.same others = true := by
  rw [inspectIn_eq, inspectIn_eq, ← map_inspect_eq_iff]
  constructor
  · exact Text.listed_expanded_inj items.not_mem_map_inspect others.not_mem_map_inspect
  · intro h
    rw [h]

end Items

/-- The diagnostic text says, on one line, which value it is the text of, as far as values that are
equal can be told apart at all, and it is the same in either layout. So a list over several lines
has its elements on lines of their own, indented, in order and with a comma, between a line for each
bracket, and it is known by these lines. -/
theorem inspect_unambiguous (v w : Value) (items others : Items) :
    (∀ layout, v.inspectIn layout = v.inspect) ∧
    (v.inspect = w.inspect ↔ v.equals w = true) ∧
    '\n' ∉ v.inspect.toList ∧
    (items ≠ [] →
      Text.lines (items.inspectIn .expanded) =
        "[" :: items.map (fun element => "    " ++ element.inspect ++ ",") ++ ["]"] ∧
      (Text.lines (items.inspectIn .expanded)).length = items.length + 2) ∧
    (items.inspectIn .expanded = others.inspectIn .expanded ↔ items.same others = true) := by
  refine ⟨fun layout => v.inspectIn_eq layout, v.inspect_eq_iff w, v.not_mem_inspect, ?_,
    items.inspectIn_expanded_eq_iff others⟩
  intro hSome
  have hLines : Text.lines (items.inspectIn .expanded) =
      "[" :: items.map (fun element => "    " ++ element.inspect ++ ",") ++ ["]"] := by
    rw [Items.inspectIn_eq, Text.lines_listed_expanded items.not_mem_map_inspect (by simpa),
      Text.listLines, List.map_map]
    rfl
  refine ⟨hLines, ?_⟩
  rw [hLines]
  simp

end DynamicValue
