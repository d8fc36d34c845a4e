import TypedVariant.Native.Equality

/-! # The order of native values

Numbers are ordered by value, text and bytes by their first difference, and
tuples by the first items that differ. Values of other kinds, or of different
classes, have no order among them. Nothing is less than a value that is no
number, and it is less than nothing.
-/

namespace TypedVariant.Native

/-- The kinds of two values without an order among them, the one asked to be less first. -/
structure Unordered where
  left : String
  right : String
  deriving DecidableEq, Repr

/-- Doubles in the order of their values. -/
def doubleLess : Double → Double → Bool
  | .nan _, _ | _, .nan _ => false
  | .infinity a, .infinity b => a && !b
  | .infinity negative, .finite _ _ _ => negative
  | .finite _ _ _, .infinity negative => !negative
  | x, y =>
    match x.units?, y.units? with
    | some m, some n => decide (m < n)
    | _, _ => false

def wholeLess (z : Int) : Double → Bool
  | .nan _ => false
  | .infinity negative => !negative
  | y =>
    match y.units? with
    | some n => decide (z * Double.unitsPerOne < n)
    | none => false

def wholeGreater (z : Int) : Double → Bool
  | .nan _ => false
  | .infinity negative => negative
  | y =>
    match y.units? with
    | some n => decide (n < z * Double.unitsPerOne)
    | none => false

def Number.less : Number → Number → Bool
  | whole a, whole b => decide (a < b)
  | real a, real b => doubleLess a b
  | whole a, real b => wholeLess a b
  | real a, whole b => wholeGreater b a

mutual

/-- Whether a value is less than another. -/
def less : Native → Native → Except Unordered Bool
  | text a, y => match y with
    | text b => .ok (decide (a < b))
    | _ => .error ⟨(text a).kindName, y.kindName⟩
  | blob kind a, y => match y with
    | blob .fixed b | blob .growable b =>
      if kind = .view then .error ⟨(blob kind a).kindName, y.kindName⟩ else .ok (decide (a < b))
    | _ => .error ⟨(blob kind a).kindName, y.kindName⟩
  | tuple as, y => match y with
    | tuple bs => lessItems as bs
    | _ => .error ⟨(tuple as).kindName, y.kindName⟩
  | list as, y => match y with
    | list bs => lessItems as bs
    | _ => .error ⟨(list as).kindName, y.kindName⟩
  | x, y => match x.number?, y.number? with
    | some m, some n => .ok (m.less n)
    | _, _ => .error ⟨x.kindName, y.kindName⟩
termination_by structural x => x

/-- Whether the items of a sequence come before those of another. -/
def lessItems : List Native → List Native → Except Unordered Bool
  | [], bs => .ok (!bs.isEmpty)
  | _ :: _, [] => .ok false
  | a :: as, b :: bs => if a.same b then lessItems as bs else a.less b
termination_by structural items => items

end

end TypedVariant.Native
