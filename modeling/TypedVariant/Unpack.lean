import TypedVariant.Native.Equality
import TypedVariant.Settings.Basic
import TypedVariant.Signature.Parse

/-! # Unpacking

Unpacking is led by what a variant says of itself. A shallow unpacking opens one
level and leaves the children as variants; a deep one goes on through all levels
but leaves the content of boxes as it is; a recursive one opens boxes too. Arrays
of dictionary entries become maps, whose keys are unpacked in every case, so that
they can serve as keys; a repeated key keeps its first place and takes the last
value.
-/

namespace TypedVariant

/-- How far an unpacking goes. -/
inductive Opening
  | shallow | deep | recursive
  deriving DecidableEq, Repr

namespace Opening

/-- Boxes are opened only where children are. -/
def ofFlags (deep recursive : Bool) : Opening :=
  if deep then (if recursive then .recursive else .deep) else .shallow

def opensChildren : Opening → Bool
  | shallow => false
  | deep | recursive => true

def opensBoxes : Opening → Bool
  | recursive => true
  | shallow | deep => false

end Opening

namespace Variant

/-- Refuses what lies deeper than the settings allow. -/
def checkDepth (settings : Settings) (depth : Int) : Except Error Unit :=
  if settings.maxDepth < depth then .error (.tooDeep settings.maxDepth) else .ok ()

/-- What is said of a variant whose tag is in no list, or that has none. -/
def unknownError (v : Variant) : Error :=
  match v.tag? with
  | some c => .unknownTag (String.singleton c)
  | none => .positionIndex

/-- What a variant of an unknown type unpacks to: its content where its tag announces a basic value,
a box or a maybe, and nothing where the content is not what the tag announces. -/
def unpackUnknown (settings : Settings) (opening : Opening) (depth : Int) (typeString : String)
    (content : Native) : Except Error Native := do
  let v := unknown typeString content
  match PrintFault.ofUnknown? typeString content with
  | none => if v.isBasic then return content else throw v.unknownError
  | some (.notAContainer kind) =>
    if typeString = "v" ∨ !opening.opensChildren then return content
    else
      checkDepth settings (depth + 1)
      throw (PrintFault.notAContainer kind).error
  | some (.partless kind) =>
    if v.tag? = some 'a' then
      let _ ← v.isOfType (.text "a\x7b?*\x7d")
    throw (PrintFault.partless kind).error
  | some fault => throw fault.error

mutual

/-- Unpacks a variant that lies at the given depth. -/
def unpackAt (settings : Settings) (opening : Opening) (depth : Int) :
    Variant → Except Error Native
  | boolean value => do checkDepth settings depth; return .bool value
  | integer _ value => do checkDepth settings depth; return .int value
  | double value => do checkDepth settings depth; return .double value
  | text _ value => do checkDepth settings depth; return .text value
  | box content => do
      checkDepth settings depth
      if opening.opensBoxes then unpackAt settings opening (depth + 1) content
      else return .variant content
  | foreignBox content => do checkDepth settings depth; return .foreign content
  | nothing _ => do checkDepth settings depth; return .null
  | just content => do
      checkDepth settings depth
      if opening.opensChildren then unpackAt settings opening (depth + 1) content
      else return .variant content
  | bytes blob => do checkDepth settings depth; return .bytes blob
  | array element items => do
      checkDepth settings depth
      -- Entries make a map even where the children stay closed.
      if ← (array element items).isOfType (.text "a\x7b?*\x7d") then
        return .mapOf (← unpackEntries settings opening (depth + 1) items)
      else if opening.opensChildren then
        return .list (← unpackAll settings opening (depth + 1) items)
      else return .list (items.map .variant)
  | tuple members => do
      checkDepth settings depth
      if opening.opensChildren then
        return .list (← unpackAll settings opening (depth + 1) members)
      else return .list (members.map .variant)
  | entry key value => do
      checkDepth settings depth
      if opening.opensChildren then
        let k ← unpackAt settings opening (depth + 1) key
        return .list [k, ← unpackAt settings opening (depth + 1) value]
      else return .list [.variant key, .variant value]
  | unknown typeString content => do
      checkDepth settings depth
      unpackUnknown settings opening depth typeString content
termination_by structural v => v

/-- Unpacks the variants of a list, which lie at the given depth. -/
def unpackAll (settings : Settings) (opening : Opening) (depth : Int) :
    List Variant → Except Error (List Native)
  | [] => .ok []
  | v :: rest => do
      let x ← unpackAt settings opening depth v
      return x :: (← unpackAll settings opening depth rest)
termination_by structural items => items

/-- Unpacks dictionary entries, which lie at the given depth, to pairs of key and value. -/
def unpackEntries (settings : Settings) (opening : Opening) (depth : Int) :
    List Variant → Except Error (List (Native × Native))
  | [] => .ok []
  | entry key value :: rest => do
      checkDepth settings depth
      let pair ←
        if opening.opensChildren then do
          let k ← unpackAt settings opening (depth + 1) key
          pure (k, ← unpackAt settings opening (depth + 1) value)
        else do
          let k ← unpackAt settings .deep (depth + 1) key
          pure (k, .variant value)
      return pair :: (← unpackEntries settings opening depth rest)
  | v :: _ => .error (unknownError v)
termination_by structural items => items

end

/-- Unpacks a variant as the outermost one. -/
def unpack (settings : Settings) (opening : Opening) (v : Variant) : Except Error Native :=
  v.unpackAt settings opening 0

end Variant

/-- The depth that a native value stands for. One between two whole depths counts as the deeper of
them. Infinity lies beyond every limit; its opposite, and what is not a number, beyond none. -/
def Native.depth (x : Native) : Except Error Int :=
  match x with
  | .int value => .ok value
  | .bool value => .ok (if value then 1 else 0)
  | .double value =>
    match value.units? with
    | some units => .ok (-(-units / Double.unitsPerOne))
    | none => .ok (if value = .infinity false then maxDepthLimit + 1 else -maxDepthLimit)
  | _ => .error (.unorderedDepth x.kindName)

/-- Unpacks a container given as a native value. A foreign container tells no more than its tag:
what a known tag calls for, it cannot do. -/
def Native.unpackContainer (settings : Settings) (opening : Opening) (depth : Int) (x : Native) :
    Except Error Native := do
  Variant.checkDepth settings depth
  match x with
  | .variant v => v.unpackAt settings opening depth
  | .foreign container =>
    match container.unpackRequest? with
    | some operation => throw (.missingOperation x.kindName operation)
    | none => throw (.unknownTag container.tag)
  | x => throw (.missingOperation x.kindName "classify")

end TypedVariant
