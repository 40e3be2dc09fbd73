import DynamicValue.Evaluate
import DynamicValue.Proofs.Broadcast.NodeFault
import DynamicValue.Proofs.Items.Edit
import DynamicValue.Value.Membership

/-!
What the log tells. Arithmetic has an entry of its own exactly when it ends at two lists of
different lengths, at whatever depth it met them; appending and inserting tell how far a list grew;
nothing else is logged, but that an operator is evaluated.
-/

namespace DynamicValue

/-- The entry that the result of arithmetic calls for: one for lists of different lengths, and none
for a value or any other fault. -/
def Arithmetic.report {α : Type} (op : Arithmetic) (result : Except Fault α) : List Event :=
  match result with
  | .ok _ => []
  | .error fault =>
    match fault.cause with
    | .shapeMismatch left right => [.shapeMismatch op left right]
    | _ => []

namespace Outcome

variable {α β : Type} {op : Arithmetic}

/-- The log holds what the result calls for, and nothing else. -/
def Tells (op : Arithmetic) (outcome : Outcome α) : Prop :=
  outcome.log = op.report outcome.result

theorem tells_pure (op : Arithmetic) (a : α) : (pure a : Outcome α).Tells op := rfl

/-- One part after the other: if the first succeeds it has logged nothing, and if it fails the
second is not reached, so that there is one entry at most. -/
theorem Tells.bind {first : Outcome α} {next : α → Outcome β} (hFirst : first.Tells op)
    (hNext : ∀ a, (next a).Tells op) : (first >>= next).Tells op := by
  change (Outcome.bind first next).Tells op
  unfold Tells Outcome.bind at *
  cases h : first.result with
  | ok a =>
      have hSilent : first.log = [] := by
        rw [hFirst, h]
        rfl
      simp only [hSilent, List.nil_append, hNext a]
  | error fault =>
      rw [h] at hFirst
      simp only [hFirst]
      rfl

end Outcome

namespace Value

variable {op : Arithmetic}

/-- The check logs just what it fails with, and is silent where the lengths agree. -/
theorem checkShape_tells (op : Arithmetic) (left right : Nat) :
    (checkShape op left right).Tells op := by
  by_cases h : left = right
  · rw [h, checkShape_self]
    exact Outcome.tells_pure op ()
  · rw [checkShape, if_pos h]
    rfl

/-- Outside of lists there is no shape to differ. -/
theorem scalar_tells (op : Arithmetic) {left : Value} (hLeaf : left.length? = none)
    (right : Value) : (Outcome.ofExcept (scalar op left right)).Tells op := by
  unfold Outcome.Tells
  cases h : scalar op left right with
  | ok => rfl
  | error fault =>
      obtain ⟨cause, hNode, rfl⟩ := (scalar_eq_error_iff hLeaf right fault).mp h
      cases hNode with
      | shape => cases hLeaf
      | tooLong | multiply | divide => rfl

/-- If arithmetic on each element of the left list tells what happened, so does arithmetic on the
list: the elements ahead of a fault have succeeded in silence. -/
theorem arithEach_tells {xs : Items} (h : ∀ v ∈ xs, ∀ w, (v.arith op w).Tells op) (ys : Items) :
    (arithEach op xs ys).Tells op := by
  induction xs generalizing ys with
  | nil => exact Outcome.tells_pure op []
  | cons x xs ih =>
      cases ys with
      | nil => exact Outcome.tells_pure op []
      | cons y ys =>
          rw [arithEach]
          refine (h x (by simp) y).bind fun item => ?_
          refine (ih (fun v hv => h v (by simp [hv])) ys).bind fun items => ?_
          exact Outcome.tells_pure op _

/-- The induction is on the left value: a list checks its shape, then works through its elements. -/
theorem arith_tells (op : Arithmetic) (a b : Value) : (a.arith op b).Tells op := by
  induction a generalizing b with
  | list xs ih =>
      rw [arith_list]
      refine (checkShape_tells op _ _).bind fun _ => ?_
      exact (arithEach_tells ih _).bind fun items => Outcome.tells_pure op _
  | null | number | text =>
      rw [arith_of_length?_eq_none op rfl]
      exact scalar_tells op rfl b

end Value

namespace Items

variable (items : Items)

theorem arith_tells (op : Arithmetic) (right : Value) : (items.arith op right).Tells op := by
  rw [arith_eq]
  refine (Value.checkShape_tells op _ _).bind fun _ => ?_
  exact Value.arithEach_tells (fun v _ => v.arith_tells op) _

/-- Appending is logged for lists alone, with the number of elements that go ahead of the list. -/
theorem append_log (value : Value) :
    (value.kind = .list → ∃ count, (items.append value).outcome.log = [.spliced count] ∧
      (items.append value).items.length = items.length + count + 1) ∧
    (value.kind ≠ .list → (items.append value).outcome.log = []) := by
  cases value with
  | list inner =>
      refine ⟨fun _ => ⟨inner.length, rfl, ?_⟩, fun h => absurd rfl h⟩
      simp [append, Nat.add_assoc]
  | null | number | text => exact ⟨fun h => absurd h (by simp [Value.kind]), fun _ => rfl⟩

/-- Inserting is logged if it succeeds and the list grows, with the index as it was given. -/
theorem insertAt_log (index : Int) (values : Items) :
    let edited := items.insertAt index values
    (edited.outcome.result = .ok () ∧ items.length < edited.items.length →
      ∃ grown, edited.outcome.log = [.spilled index grown] ∧
        edited.items.length = items.length + grown) ∧
    (¬ (edited.outcome.result = .ok () ∧ items.length < edited.items.length) →
      edited.outcome.log = []) := by
  cases items with
  | nil => exact ⟨fun h => absurd h.1 (by simp [insertAt_nil]), fun _ => rfl⟩
  | cons item rest =>
      have hPos : 0 < (item :: rest).length := by simp
      rw [insertAt_of_pos _ hPos]
      generalize hBlock : Block.mk (index % (item :: rest).length).toNat values = block
      have hStart : block.start ≤ (item :: rest).length :=
        hBlock ▸ Nat.le_of_lt (toNat_emod_lt index hPos)
      have hLength := Block.length_write hStart
      simp only
      by_cases hSpill : (item :: rest).length < block.stop
      · rw [if_pos hSpill, hLength, Nat.max_eq_right (Nat.le_of_lt hSpill)]
        refine ⟨fun _ => ⟨_, rfl, by omega⟩, fun h => absurd ⟨rfl, hSpill⟩ h⟩
      · rw [if_neg hSpill, hLength, Nat.max_eq_left (Nat.le_of_not_lt hSpill)]
        exact ⟨fun h => absurd h.2 (Nat.lt_irrefl _), fun _ => rfl⟩

theorem put_log (key value : Value) : (items.put key value).outcome.log = [] := by
  unfold put
  split <;> rfl

/-- A deletion is never logged, whether it removes an element or not. -/
theorem delete_log (key : Value) : (items.delete key).outcome.log = [] := by
  by_cases hKind : key.kind = .number
  · cases key with
    | number x =>
        cases items with
        | nil => rfl
        | cons item rest =>
            rw [delete_of_pos _ (by simp)]
            rfl
    | null | text | list => cases hKind
  · rw [delete_of_kind_ne_number items hKind]
    rfl

end Items

/-- What can be asked of values, and of lists without a value around them, without changing any:
what they read as, their order and equality, the search in them, the elements of a list, the
position that an index wraps around to, and their texts. -/
inductive Question where
  | isTrue (value : Value)
  | toNumber (value : Value)
  | asNumber (value : Value) (context : String)
  | compare (left right : Value)
  | equals (left right : Value)
  | compareItems (items : Items) (other : Value)
  | equalsItems (items : Items) (other : Value)
  | same (items others : Items)
  | member (value needle : Value)
  | get (items : Items) (key : Value)
  | has (items : Items) (key : Value)
  | slice (items : Items) (start stop : Int)
  | indexOf (items : Items) (value : Value)
  | normalizeIndex (index : Int) (len : Nat)
  | render (value : Value)
  | pretty (value : Value)
  | inspect (value : Value)
  | inspectIn (layout : Layout) (value : Value)
  | renderItems (items : Items)
  | prettyItems (items : Items)
  | inspectItems (items : Items)
  | inspectItemsIn (layout : Layout) (items : Items)

inductive Answer where
  | truth (holds : Bool)
  | order (ordering : Ordering)
  | value (value : Value)
  | position (place : Nat)
  | text (s : String)

/-- The answer to a question, which may be a fault. -/
def Question.ask : Question → Outcome Answer
  | .isTrue value => pure (.truth value.isTrue)
  | .toNumber value => pure (.value (.number value.toNumber))
  | .asNumber value context =>
    (fun x => .value (.number x)) <$> Outcome.ofExcept (value.asNumber context)
  | .compare left right => pure (.order (left.compare right))
  | .equals left right => pure (.truth (left.equals right))
  | .compareItems items other => pure (.order (items.compare other))
  | .equalsItems items other => pure (.truth (items.equals other))
  | .same items others => pure (.truth (items.same others))
  | .member value needle => .value <$> Outcome.ofExcept (value.memberIndex needle)
  | .get items key => .value <$> Outcome.ofExcept (items.get key)
  | .has items key => .truth <$> Outcome.ofExcept (items.has key)
  | .slice items start stop => pure (.value (.list (items.slice start stop)))
  | .indexOf items value => pure (.value (items.indexOf value))
  | .normalizeIndex index len =>
    .position <$> Outcome.ofExcept (DynamicValue.normalizeIndex index len)
  | .render value => pure (.text value.render)
  | .pretty value => pure (.text value.pretty)
  | .inspect value => pure (.text value.inspect)
  | .inspectIn layout value => pure (.text (value.inspectIn layout))
  | .renderItems items => pure (.text items.render)
  | .prettyItems items => pure (.text items.pretty)
  | .inspectItems items => pure (.text items.inspect)
  | .inspectItemsIn layout items => pure (.text (items.inspectIn layout))

theorem Question.ask_log (question : Question) : question.ask.log = [] := by
  cases question <;> simp [ask]

namespace Operator

/-- The entry for the evaluation comes ahead of all that the operator logs, and is there even if it
fails. -/
theorem evaluate_log (op : Operator) (left right : Value) :
    (op.evaluate left right).log =
      .evaluation left.kind right.kind op :: (op.apply left right).log := rfl

/-- Only arithmetic can meet lists of different lengths; all other operators log nothing. -/
theorem apply_of_ne_arithmetic {op : Operator} (h : ∀ calculation, op ≠ .arithmetic calculation)
    (left right : Value) :
    (op.apply left right).log = [] ∧
      ∀ m n, (op.apply left right).result ≠ .error { cause := .shapeMismatch m n } := by
  cases op with
  | arithmetic calculation => exact absurd rfl (h calculation)
  | comparison test => exact ⟨rfl, by simp [apply]⟩
  | member =>
      rw [apply]
      split <;> simp

end Operator

/-- The log tells what happened. An evaluated operator has one entry with the kinds of both values;
arithmetic has a second one exactly if it ends at two lists of different lengths, with these
lengths, and so it has without an evaluation around it. Appending a list is logged with one less
than the list grows by, and an insertion that makes the list grow with its index as given and the
growth. No other edit is logged, and no question. -/
theorem log_tells_what_happened :
    (∀ (op : Arithmetic) (a b : Value),
      let outcome := (Operator.arithmetic op).evaluate a b
      outcome.log = .evaluation a.kind b.kind (.arithmetic op) :: op.report outcome.result) ∧
    (∀ (op : Operator) (a b : Value), (∀ calculation, op ≠ .arithmetic calculation) →
      (op.evaluate a b).log = [.evaluation a.kind b.kind op] ∧
      ∀ m n, (op.evaluate a b).result ≠ .error { cause := .shapeMismatch m n }) ∧
    (∀ (op : Arithmetic) (a b : Value), (a.arith op b).log = op.report (a.arith op b).result) ∧
    (∀ (op : Arithmetic) (items : Items) (b : Value),
      (items.arith op b).log = op.report (items.arith op b).result) ∧
    (∀ (items : Items) (value : Value),
      (value.kind = .list → ∃ count, (items.append value).outcome.log = [.spliced count] ∧
        (items.append value).items.length = items.length + count + 1) ∧
      (value.kind ≠ .list → (items.append value).outcome.log = [])) ∧
    (∀ (items : Items) (index : Int) (values : Items),
      let edited := items.insertAt index values
      (edited.outcome.result = .ok () ∧ items.length < edited.items.length →
        ∃ grown, edited.outcome.log = [.spilled index grown] ∧
          edited.items.length = items.length + grown) ∧
      (¬ (edited.outcome.result = .ok () ∧ items.length < edited.items.length) →
        edited.outcome.log = [])) ∧
    (∀ (items : Items) (edit : Edit), (∀ value, edit ≠ .append value) →
      (∀ index values, edit ≠ .insertAt index values) → (edit.apply items).outcome.log = []) ∧
    (∀ question : Question, question.ask.log = []) := by
  refine ⟨?_, ?_, fun op a b => a.arith_tells op b, fun op items b => items.arith_tells op b,
    Items.append_log, Items.insertAt_log, ?_, Question.ask_log⟩
  · intro op a b outcome
    change _ :: (a.arith op b).log = _ :: op.report (a.arith op b).result
    rw [a.arith_tells op b]
  · intro op a b h
    obtain ⟨hLog, hResult⟩ := Operator.apply_of_ne_arithmetic h a b
    rw [Operator.evaluate_log, hLog]
    exact ⟨rfl, hResult⟩
  · intro items edit hAppend hInsert
    cases edit with
    | append value => exact absurd rfl (hAppend value)
    | insertAt index values => exact absurd rfl (hInsert index values)
    | put key value => exact (Outcome.map_log _ _).trans (items.put_log key value)
    | delete key => exact (Outcome.map_log _ _).trans (items.delete_log key)
    | extend | subtractFrom => rfl

/-- Lists that differ further in are what the second entry tells of. -/
example : ((Operator.arithmetic .add).evaluate (.list [.text "a", .list [.null]])
    (.list [.text "b", .list []])).log =
      [.evaluation .list .list (.arithmetic .add), .shapeMismatch .add 1 0] := rfl

end DynamicValue
