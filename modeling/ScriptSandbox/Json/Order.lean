import ScriptSandbox.Json.Basic

/-!
# Order and repetition

Numbers are ordered by value, texts by code points, and arrays by their first
items that differ, the shorter first if there are none.  Inside an array a truth
value counts as a number; no other two values have an order.
-/

namespace ScriptSandbox

def Scalar.compare? : Scalar → Scalar → Option Ordering
  | .str a, .str b => some (compare a b)
  | a, b =>
      match a.number?, b.number? with
      | some x, some y => some (x.compare y)
      | _, _ => none

namespace Json

mutual

def compare? : Json → Json → Option Ordering
  | .scalar a, .scalar b => a.compare? b
  | .arr as, .arr bs => compareItems? as bs
  | _, _ => none
  termination_by structural a => a

def compareItems? : List Json → List Json → Option Ordering
  | [], [] => some .eq
  | [], _ :: _ => some .lt
  | _ :: _, [] => some .gt
  | a :: as, b :: bs => if eq a b then compareItems? as bs else compare? a b
  termination_by structural as => as

end

/-- The order of two items of a list; a truth value that is an item has none. -/
def itemOrder? : Json → Json → Option Ordering
  | .bool _, _ => none
  | _, .bool _ => none
  | a, b => compare? a b

def allOrdered : List Json → Bool
  | [] => true
  | item :: rest => rest.all (fun other => (itemOrder? item other).isSome) && allOrdered rest

def sortItems (items : List Json) : List Json :=
  items.mergeSort fun a b => itemOrder? a b ≠ some .gt

def equalNeighbours : List Json → Bool
  | a :: b :: rest => eqStrict a b || equalNeighbours (b :: rest)
  | _ => false

def equalPair : List Json → Bool
  | [] => false
  | item :: rest => rest.any (eqStrict item ·) || equalPair rest

/--
Whether a list repeats an item.  Where all items have an order, only neighbours in
that order are looked at; it takes truth values inside arrays for numbers, so equal
items may lie apart.
-/
def hasRepetition (items : List Json) : Bool :=
  if allOrdered items then equalNeighbours (sortItems items) else equalPair items

end Json

end ScriptSandbox
