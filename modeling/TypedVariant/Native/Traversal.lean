import TypedVariant.Error
import TypedVariant.Native.Basic
import TypedVariant.Native.Equality

/-! # Keys, items and pairs

Maps and sets hold values that cannot change as keys: collections that can, and
tuples with such a collection inside, are none. Collections can be gone through by
their items, maps by their keys, text by its characters, blocks of bytes by their
numbers, and containers by their children; nothing else can. Text and bytes are
searched for runs as well as for single characters or bytes. A sequence of pairs
says which entries a map would have: a pair is anything that can be gone through
and has two items, and later entries replace earlier ones of the same key.
-/

namespace TypedVariant

mutual

/-- The kind of the first collection that can change in what a variant holds. Only a variant of an
unknown type holds any. -/
def Variant.changeable? : Variant → Option String
  | .box content | .just content => content.changeable?
  | .array _ items | .tuple items => Variant.changeableAmong? items
  | .entry key value => key.changeable?.or value.changeable?
  | .unknown _ content => content.changeable?
  | .boolean _ | .integer _ _ | .double _ | .text _ _ | .foreignBox _ | .nothing _
  | .bytes _ => none
termination_by structural v => v

def Variant.changeableAmong? : List Variant → Option String
  | [] => none
  | v :: rest => v.changeable?.or (Variant.changeableAmong? rest)
termination_by structural items => items

/-- The kind of the first collection that can change, if a value is or holds one as a key. -/
def Native.changeable? : Native → Option String
  | .list items => some (Native.list items).kindName
  | .map entries => some (Native.map entries).kindName
  | .set items => some (Native.set items).kindName
  | .blob .growable data => some (Native.blob .growable data).kindName
  | .tuple items => Native.changeableAmong? items
  | .variant v => v.changeable?
  | .null | .bool _ | .int _ | .double _ | .text _ | .blob .fixed _ | .blob .view _ | .stream _ _
  | .range _ _ _ | .object _ | .sigType _ | .dictionary _ _ | .foreign _ => none
termination_by structural x => x

/-- The kind of the first collection that can change among the items of a tuple. -/
def Native.changeableAmong? : List Native → Option String
  | [] => none
  | x :: rest => x.changeable?.or (Native.changeableAmong? rest)
termination_by structural items => items

end

/-- The children of a container. The content of a variant of an unknown type is its only child where
its tag is that of a box or a maybe. -/
def Variant.children (v : Variant) : Except Error (List Native) :=
  match Native.childrenOf? v, v, v.tag? with
  | some items, _, _ => .ok items
  | none, _, none => .error .positionIndex
  | none, unknown _ content, some c =>
    if c = 'v' ∨ c = 'm' then .ok [content]
    else if c = 'a' ∨ c = '(' ∨ c = '{' then .error (.noSize content.kindName)
    else .error (.noChildren v.typeString)
  | none, _, some _ => .error (.noChildren v.typeString)

namespace Native

/-- The values met when going through a value one by one. -/
def iterate : Native → Except Error (List Native)
  | list items | tuple items | set items | stream items _ => .ok items
  | map entries => .ok (entries.map Prod.fst)
  | range start stop step => .ok (rangeItems start stop step)
  | text value => .ok (value.toList.map (fun c => text (String.singleton c)))
  | blob _ data => .ok (data.map (fun b => int b.toNat))
  | dictionary v _ => .ok (dictionaryKeys v)
  | variant v => v.children
  | x => .error (.notIterable x.kindName)

def size : Native → Except Error Nat
  | list items | tuple items | set items => .ok items.length
  | map entries => .ok entries.length
  | range start stop step =>
    let size := rangeSize start stop step
    if size < wordLimit then .ok size else .error .overlongRange
  | text value => .ok value.length
  | blob _ data => .ok data.length
  | dictionary v _ => .ok (v.children?.getD []).length
  | x => .error (.noSize x.kindName)

/-- Whether a list is found as a run inside another. -/
def hasRun {α : Type} [BEq α] (run : List α) : List α → Bool
  | [] => run.isEmpty
  | a :: rest => run.isPrefixOf (a :: rest) || hasRun run rest

/-- Whether a block of bytes has a byte, or other bytes as a run. -/
def hasBytes (data : List UInt8) : Native → Except Error Bool
  | blob _ run => .ok (hasRun run data)
  | bool value => .ok (data.contains (if value then 1 else 0))
  | int value =>
    if 0 ≤ value ∧ value < 256 then .ok (data.contains (UInt8.ofNat value.toNat))
    else .error .byteOperand
  | x => .error (.bytesOperand x.kindName)

/-- Whether a value is among those by which keys are told apart. -/
def isAmongKeys (keys : List Native) (x : Native) : Except Error Bool :=
  match x.changeable? with
  | some kind => .error (.unusableKey kind)
  | none => .ok (keys.any (·.same x))

def isInRange (start stop step : Int) (x : Native) : Bool :=
  let among (z : Int) : Bool :=
    (z - start) % step == 0 && decide (0 ≤ (z - start) / step) &&
      decide ((z - start) / step < rangeSize start stop step)
  match x.number? with
  | some (.whole z) => among z
  | some (.real d) => d.whole?.any among
  | none => false

/-- Whether a value is met when going through a container. Maps are searched by their keys, and a
set takes the place of its items when another set is searched for it. -/
def contains (container x : Native) : Except Error Bool :=
  match container, x with
  | map entries, _ => isAmongKeys (entries.map Prod.fst) x
  | range start stop step, _ => .ok (isInRange start stop step x)
  | set items, set _ => .ok (items.any (·.same x))
  | set items, _ => isAmongKeys items x
  | text value, text run => .ok (hasRun run.toList value.toList)
  | text _, _ => .error (.textOperand x.kindName)
  | blob .view data, _ => .ok (data.any (fun b => (int b.toNat).same x))
  | blob _ data, _ => hasBytes data x
  | _, _ =>
    match container.iterate with
    | .ok items => .ok (items.any (·.same x))
    | .error (.notIterable kind) => .error (.notSearchable kind)
    | .error e => .error e

/-- The key and value of the item at an index of a sequence of pairs. -/
def toPair (index : Nat) (x : Native) : Except Error (Native × Native) :=
  match x.iterate with
  | .error _ => .error (.indivisiblePair index)
  | .ok [key, value] =>
    match key.changeable? with
    | none => .ok (key, value)
    | some kind => .error (.unusableKey kind)
  | .ok items => .error (.pairSize index items.length)

def toPairs (index : Nat) : List Native → Except Error (List (Native × Native))
  | [] => .ok []
  | x :: rest => do
    let pair ← x.toPair index
    return pair :: (← toPairs (index + 1) rest)

/-- The map that a value stands for. -/
def toMap : Native → Except Error Native
  | map entries => .ok (map entries)
  | x => do return mapOf (← toPairs 0 (← x.iterate))

end Native

end TypedVariant
