import DynamicValue.Items.Index
import DynamicValue.Outcome

/-!
Changing a list. Every edit gives the list that results, also when it fails or refuses: the result
is then the list as it was.
-/

namespace DynamicValue

/-- The list after an edit, and what the edit came to. -/
structure Edited (α : Type) where
  items : Items
  outcome : Outcome α

namespace Items

/-- Puts a value at the end. A list goes in twice over: its elements one by one, then the list
itself as one element. -/
def append (items : Items) (value : Value) : Edited Unit :=
  match value with
  | .list inner => ⟨items ++ inner ++ [value], Outcome.emit (.spliced inner.length)⟩
  | _ => ⟨items ++ [value], pure ()⟩

/-- Puts all the values at the end. -/
def extend (items : Items) (values : Items) : Edited Unit := ⟨items ++ values, pure ()⟩

/-- Writes the values one after the other from position `pos` on, over the elements below `bound`
and to the end of the list from there on. -/
def writeFrom (bound pos : Nat) (items : Items) : List Value → Items
  | [] => items
  | value :: values =>
    let written := if pos < bound then items.set pos value else items ++ [value]
    writeFrom bound (pos + 1) written values

/-- Writes the values over the elements from the wrapped index on. Once past the end it goes on at
the end; it does not wrap a second time, and it moves no element. -/
def insertAt (items : Items) (index : Int) (values : Items) : Edited Unit :=
  match normalizeIndex index items.length with
  | .error fault => ⟨items, Outcome.ofExcept (.error fault)⟩
  | .ok start =>
    let written := writeFrom items.length start items values
    if items.length < start + values.length then
      ⟨written, Outcome.emit (.spilled index (written.length - items.length))⟩
    else ⟨written, pure ()⟩

/-- Replaces the element that the key addresses. The answer is always true. -/
def put (items : Items) (key value : Value) : Edited Bool :=
  match items.position key with
  | .error fault => ⟨items, Outcome.ofExcept (.error fault)⟩
  | .ok i => ⟨items.set i value, pure true⟩

/-- Removes the element at the wrapped index. The answer is false, and nothing happens, if the key
is no number or the list is empty. -/
def delete (items : Items) (key : Value) : Edited Bool :=
  match key with
  | .number x =>
    if items.isEmpty then ⟨items, pure false⟩
    else
      match normalizeIndex x.truncate items.length with
      | .error fault => ⟨items, Outcome.ofExcept (.error fault)⟩
      | .ok i => ⟨items.eraseIdx i, pure true⟩
  | _ => ⟨items, pure false⟩

/-- Subtraction from a list in place, which is not provided. -/
def subtractFrom (items : Items) (_ : Value) : Edited Unit :=
  ⟨items, Outcome.fail (.unsupportedOperation "subtract-from on list")⟩

end Items

/-- An edit as data. -/
inductive Edit where
  | append (value : Value)
  | extend (values : Items)
  | insertAt (index : Int) (values : Items)
  | put (key value : Value)
  | delete (key : Value)
  | subtractFrom (value : Value)

namespace Edit

/-- The list after the edit, and what the edit answers, if it answers anything but success. -/
def apply (items : Items) : Edit → Edited (Option Bool)
  | .append value => silent (items.append value)
  | .extend values => silent (items.extend values)
  | .insertAt index values => silent (items.insertAt index values)
  | .put key value => answering (items.put key value)
  | .delete key => answering (items.delete key)
  | .subtractFrom value => silent (items.subtractFrom value)
where
  silent (edited : Edited Unit) : Edited (Option Bool) :=
    { edited with outcome := (fun _ => none) <$> edited.outcome }
  answering (edited : Edited Bool) : Edited (Option Bool) :=
    { edited with outcome := some <$> edited.outcome }

/-- The list after a sequence of edits. One that fails does not stop the others. -/
def run (items : Items) (edits : List Edit) : Items :=
  edits.foldl (fun items edit => (edit.apply items).items) items

end Edit

end DynamicValue
