/-! # Sorting by bisection

Items are inserted one by one where bisection places them among those before
them. The run at the front that is in order already is taken as it is, or turned
round if it falls. A comparison may fail, and then sorting fails with it; so the
order of comparisons is part of the definition.
-/

namespace TypedVariant.Bisection

variable {α ε : Type}

/-- Inserts an item into sorted ones, behind those that are not greater. -/
def insert (less : α → α → Except ε Bool) (x : α) (items : List α) : Except ε (List α) :=
  match h : items.drop (items.length / 2) with
  | [] => .ok [x]
  | middle :: above => do
    let below := items.take (items.length / 2)
    have hsplit : items.length = below.length + (above.length + 1) := by
      have := congrArg List.length (List.take_append_drop (items.length / 2) items)
      simp only [h, List.length_append, List.length_cons] at this
      exact this.symm
    -- What is not less goes behind the middle, so equal items keep their order.
    if ← less x middle then return (← insert less x below) ++ middle :: above
    else return below ++ middle :: (← insert less x above)
termination_by items.length

/-- Takes the rest of a rising run, whose latest item comes first, and turns it round. -/
def rise (less : α → α → Except ε Bool) (latest : α) (earlier : List α) :
    List α → Except ε (List α × List α)
  | [] => .ok ((latest :: earlier).reverse, [])
  | x :: rest => do
    if ← less x latest then return ((latest :: earlier).reverse, x :: rest)
    else rise less x (latest :: earlier) rest

/-- Takes the rest of a falling run, whose latest item comes first. -/
def fall (less : α → α → Except ε Bool) (latest : α) (earlier : List α) :
    List α → Except ε (List α × List α)
  | [] => .ok (latest :: earlier, [])
  | x :: rest => do
    if ← less x latest then fall less x (latest :: earlier) rest
    else return (latest :: earlier, x :: rest)

/-- The run at the front, in rising order, and the items behind it. -/
def takeRun (less : α → α → Except ε Bool) : List α → Except ε (List α × List α)
  | a :: b :: rest => do
    if ← less b a then fall less b [a] rest else rise less b [a] rest
  | items => .ok (items, [])

/-- Sorts items, or fails with the first comparison that fails. -/
def sort (less : α → α → Except ε Bool) (items : List α) : Except ε (List α) := do
  let (run, rest) ← takeRun less items
  rest.foldlM (fun sorted x => insert less x sorted) run

end TypedVariant.Bisection
