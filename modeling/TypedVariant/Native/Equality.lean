import TypedVariant.Native.Basic

/-! # Equality of values

Equality is by value and goes across kinds where the kinds describe the same
thing: truth values, integers and doubles compare as exact numbers, and blocks of
bytes by their bytes. Maps compare without regard to order. A value that is not a
number equals nothing, and values without content equal only what has their mark.

Inside collections and variants sameness comes before equality: a value that is
not a number is found there again by its mark, so that every collection equals
itself.
-/

namespace TypedVariant

namespace Double

/-- Numeric equality: zeros are equal, and a value that is no number equals nothing. -/
def equal : Double → Double → Bool
  | nan _, _ | _, nan _ => false
  | infinity a, infinity b => a == b
  | x, y => x.units?.isSome && x.units? == y.units?

/-- Whether two doubles are no numbers with the same mark. -/
def isSameNaN : Double → Double → Bool
  | nan a, nan b => a == b
  | _, _ => false

/-- Whether two doubles are the same value or equal numbers. -/
def same (x y : Double) : Bool :=
  x.isSameNaN y || x.equal y

end Double

namespace SigType

mutual

/-- Whether two types are built alike. -/
def equal : SigType → SigType → Bool
  | basic a, basic b => a == b
  | variant, variant => true
  | maybe a, maybe b => a.equal b
  | array a, array b => a.equal b
  | tuple as, tuple bs => equalAll as bs
  | dictEntry j a, dictEntry k b => j.equal k && a.equal b
  | wildcard a, wildcard b => a == b
  | unlisted a, unlisted b => a == b
  | unlistedWildcard a, unlistedWildcard b => a == b
  | _, _ => false

def equalAll : List SigType → List SigType → Bool
  | [], [] => true
  | a :: as, b :: bs => a.equal b && equalAll as bs
  | _, _ => false

end

end SigType

namespace Native

/-- The number that a truth value, an integer or a double stands for, as a double or exactly. -/
inductive Number
  | whole (value : Int)
  | real (value : Double)

def number? : Native → Option Number
  | bool value => some (.whole (if value then 1 else 0))
  | int value => some (.whole value)
  | double value => some (.real value)
  | _ => none

/-- Exact equality of numbers. -/
def Number.equal : Number → Number → Bool
  | whole a, whole b => a == b
  | real a, real b => a.equal b
  | whole a, real b | real b, whole a => b.whole? == some a

/-- Whether two values are no numbers with the same mark. -/
def isSameNaN : Native → Native → Bool
  | double a, double b => a.isSameNaN b
  | _, _ => false

end Native

mutual

/-- Whether two variants have the same type and the same content. -/
def Variant.equal : Variant → Variant → Bool
  | .boolean a, .boolean b => a == b
  | .integer c a, .integer d b => c == d && a == b
  | .double a, .double b => a.same b
  | .text c a, .text d b => c == d && a == b
  | .box a, .box b => a.equal b
  | .foreignBox a, .foreignBox b => a.mark == b.mark
  | .nothing a, .nothing b => a == b
  | .just a, .just b => a.equal b
  | .bytes a, .bytes b => a == b
  | .array e as, .array f bs => e == f && Variant.equalAll as bs
  | .tuple as, .tuple bs => Variant.equalAll as bs
  | .entry j a, .entry k b => j.equal k && a.equal b
  | .unknown a x, .unknown b y => a == b && (x.isSameNaN y || x.equal y)
  | _, _ => false
termination_by structural v => v

def Variant.equalAll : List Variant → List Variant → Bool
  | [], [] => true
  | a :: as, b :: bs => a.equal b && Variant.equalAll as bs
  | _, _ => false
termination_by structural items => items

def Native.equal : Native → Native → Bool
  | .null, y => match y with
    | .null => true
    | _ => false
  | .text a, y => match y with
    | .text b => a == b
    | _ => false
  | .blob _ a, y => match y with
    | .blob _ b => a == b
    | _ => false
  | .list as, y => match y with
    | .list bs => Native.equalAll as bs
    | _ => false
  | .tuple as, y => match y with
    | .tuple bs => Native.equalAll as bs
    | _ => false
  | .map as, y => match y with
    | .map bs => as.length == bs.length && Native.mapsInto bs as
    | _ => false
  | .set as, y => match y with
    | .set bs => as.length == bs.length && Native.allIn bs as
    | _ => false
  | .range a b c, y => match y with
    | .range d e f =>
      let size := Native.rangeSize a b c
      size == Native.rangeSize d e f && (size == 0 || (a == d && (size == 1 || c == f)))
    | _ => false
  | .sigType s, y => match y with
    | .sigType t => s.equal t
    | _ => false
  | .variant v, y => match y with
    | .variant w => v.equal w
    | _ => false
  | .bool a, y => match y.number? with
    | some n => Native.Number.equal (.whole (if a then 1 else 0)) n
    | none => false
  | .int a, y => match y.number? with
    | some n => Native.Number.equal (.whole a) n
    | none => false
  | .double a, y => match y.number? with
    | some n => Native.Number.equal (.real a) n
    | none => false
  | .stream _ a, y => match y with
    | .stream _ b => a == b
    | _ => false
  | .object a, y => match y with
    | .object b => a == b
    | _ => false
  | .dictionary _ a, y => match y with
    | .dictionary _ b => a == b
    | _ => false
  | .foreign a, y => match y with
    | .foreign b => a.mark == b.mark
    | _ => false
termination_by structural x => x

def Native.equalAll : List Native → List Native → Bool
  | [], [] => true
  | a :: as, b :: bs => (a.isSameNaN b || a.equal b) && Native.equalAll as bs
  | _, _ => false
termination_by structural items => items

/-- Whether every entry has its like among those of another map. -/
def Native.mapsInto (others : List (Native × Native)) : List (Native × Native) → Bool
  | [] => true
  | (key, value) :: rest =>
    others.any (fun other => (key.isSameNaN other.1 || key.equal other.1) &&
      (value.isSameNaN other.2 || value.equal other.2)) && Native.mapsInto others rest
termination_by structural entries => entries

/-- Whether every value has its like among the others. -/
def Native.allIn (others : List Native) : List Native → Bool
  | [] => true
  | a :: rest => others.any (fun b => a.isSameNaN b || a.equal b) && Native.allIn others rest
termination_by structural items => items

end

namespace Native

/-- Whether two values are the same or equal, as collections compare what they hold. -/
def same (x y : Native) : Bool :=
  x.isSameNaN y || x.equal y

/-- Stores a value under a key. An equal key that is already there stays, in its place, and has
its value replaced; a new key comes last. -/
def insert (key value : Native) : List (Native × Native) → List (Native × Native)
  | [] => [(key, value)]
  | (k, v) :: rest =>
    if k.same key then (k, value) :: rest else (k, v) :: insert key value rest

def lookup? (key : Native) (entries : List (Native × Native)) : Option Native :=
  (entries.find? (fun entry => entry.1.same key)).map Prod.snd

/-- The map that results from storing pairs one after the other. -/
def mapOf (pairs : List (Native × Native)) : Native :=
  map (pairs.foldl (fun entries pair => insert pair.1 pair.2 entries) [])

/-- The set of the distinct values of a list. -/
def setOf (items : List Native) : Native :=
  set (items.foldl (fun seen x => if seen.any (·.same x) then seen else seen ++ [x]) [])

end Native

end TypedVariant
