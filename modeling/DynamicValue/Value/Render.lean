import DynamicValue.Number.Render
import DynamicValue.Text.Layout
import DynamicValue.Value.Basic

/-!
The three texts of a value. `render` is its text in full, with texts bare; `pretty` is for reading,
with texts in single quotes and long lists abbreviated; `inspect` is diagnostic, names every kind
and stays on one line.
-/

namespace DynamicValue

/-- Lists shorter than this are shown whole in the pretty form. -/
def prettyFullLimit : Nat := 8

/-- How many elements the pretty form of a longer list shows at each end. -/
def prettyEdge : Nat := 2

/-- A short list as it is; of a longer one the elements at both ends, with a marker for the rest. -/
def abbreviate {α : Type} (marker : α) (parts : List α) : List α :=
  if parts.length < prettyFullLimit then parts
  else parts.take prettyEdge ++ marker :: parts.drop (parts.length - prettyEdge)

namespace Value

mutual

def render : Value → String
  | .null => "null"
  | .number x => x.render
  | .text s => s
  | .list items => Text.bracketed (renderEach items)

def renderEach : List Value → List String
  | [] => []
  | v :: vs => v.render :: renderEach vs

end

theorem renderEach_eq_map (items : List Value) : renderEach items = items.map render := by
  induction items with
  | nil => rfl
  | cons v vs ih => simp [renderEach, ih]

mutual

def pretty : Value → String
  | .null => "null"
  | .number x => x.render
  | .text s => "'" ++ s ++ "'"
  | .list items => Text.bracketed (abbreviate "..." (prettyEach items))

def prettyEach : List Value → List String
  | [] => []
  | v :: vs => v.pretty :: prettyEach vs

end

theorem prettyEach_eq_map (items : List Value) : prettyEach items = items.map pretty := by
  induction items with
  | nil => rfl
  | cons v vs ih => simp [prettyEach, ih]

mutual

def inspect : Value → String
  | .null => "Null"
  | .number x => "Number(" ++ x.render ++ ")"
  | .text s => "Str(" ++ Text.quote s ++ ")"
  | .list items => "List(" ++ Text.bracketed (inspectEach items) ++ ")"

def inspectEach : List Value → List String
  | [] => []
  | v :: vs => v.inspect :: inspectEach vs

end

theorem inspectEach_eq_map (items : List Value) : inspectEach items = items.map inspect := by
  induction items with
  | nil => rfl
  | cons v vs ih => simp [inspectEach, ih]

mutual

/-- The diagnostic text in a layout. A value passes no layout on to its parts: they are compact. -/
def inspectIn (_ : Layout) : Value → String
  | .null => "Null"
  | .number x => "Number(" ++ x.render ++ ")"
  | .text s => "Str(" ++ Text.quote s ++ ")"
  | .list items => "List(" ++ Text.listed .compact (inspectEachIn .compact items) ++ ")"

def inspectEachIn (layout : Layout) : List Value → List String
  | [] => []
  | v :: vs => v.inspectIn layout :: inspectEachIn layout vs

end

end Value

namespace Items

def render (items : Items) : String := (Value.list items).render

def pretty (items : Items) : String := (Value.list items).pretty

/-- The diagnostic texts of the elements, on one line. -/
def inspect (items : Items) : String := Text.bracketed (items.map Value.inspect)

/-- The diagnostic texts of the elements in a layout, which is asked of the elements, too. -/
def inspectIn (layout : Layout) (items : Items) : String :=
  Text.listed layout (items.map (Value.inspectIn layout))

end Items

end DynamicValue
