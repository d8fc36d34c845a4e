import TypedVariant.Bisection
import TypedVariant.Error
import TypedVariant.Native.Order
import TypedVariant.Text.Character

/-! # Canonical JSON

Every native value has at most one JSON text: no blanks, members in the order of
their keys, and no escapes but those that are needed. Bytes are written as lists
of numbers, variants as their printed form. Keys are ordered before they become
text, so the keys of one map have to be comparable with each other.
-/

namespace TypedVariant.Json

inductive WriteError
  | unordered (left right : String)
  | badKey (kind : String)
  | unwritable (kind : String)
  | unprintable (fault : PrintFault)
  deriving DecidableEq, Repr

def WriteError.message : WriteError → String
  | unordered left right => Error.noOrder "<" left right
  | badKey kind => "keys must be str, int, float, bool or None, not " ++ kind
  | unprintable fault => fault.error.message
  | unwritable kind => "Object of type " ++ kind ++ " is not JSON serializable"

def writeChar (c : Char) : List Char :=
  match c with
  | '"' => ['\\', '"']
  | '\\' => ['\\', '\\']
  | '\n' => ['\\', 'n']
  | '\r' => ['\\', 'r']
  | '\t' => ['\\', 't']
  | '\x08' => ['\\', 'b']
  | '\x0c' => ['\\', 'f']
  | c => if c.toNat < 0x20 then '\\' :: 'u' :: Text.hex 4 c.toNat else [c]

def writeString (text : List Char) : List Char :=
  '"' :: (text.flatMap writeChar ++ ['"'])

def writeDouble : Double → List Char
  | .nan _ => "NaN".toList
  | .infinity negative => if negative then "-Infinity".toList else "Infinity".toList
  | x => x.written.toList

def intText (value : Int) : List Char :=
  (toString value).toList

/-- The numeral of an integer, unless it has too many digits. -/
def writeInt (value : Int) : Except WriteError (List Char) :=
  match PrintFault.ofInteger? value with
  | some fault => .error (.unprintable fault)
  | none => .ok (intText value)

def writeArray (items : List (List Char)) : List Char :=
  '[' :: ([','].intercalate items ++ [']'])

def keyText : Native → Except WriteError (List Char)
  | .text value => .ok value.toList
  | .double value => .ok (writeDouble value)
  | .bool value => .ok (if value then "true".toList else "false".toList)
  | .null => .ok "null".toList
  | .int value => writeInt value
  | x => .error (.badKey x.kindName)

/-- The members of a map in the order of their keys. -/
def sortMembers {α : Type} (members : List (Native × α)) : Except WriteError (List (Native × α)) :=
  (Bisection.sort (fun a b => a.1.less b.1) members).mapError
    (fun pair => .unordered pair.left pair.right)

def writeMember (member : Native × Except WriteError (List Char)) :
    Except WriteError (List Char) := do
  let key ← keyText member.1
  let value ← member.2
  return writeString key ++ ':' :: value

def writeObject (members : List (Native × Except WriteError (List Char))) :
    Except WriteError (List Char) := do
  let written ← (← sortMembers members).mapM writeMember
  return '{' :: ([','].intercalate written ++ ['}'])

mutual

/-- The canonical JSON text of a value. -/
def writeChars : Native → Except WriteError (List Char)
  | .null => .ok "null".toList
  | .bool value => .ok (if value then "true".toList else "false".toList)
  | .int value => writeInt value
  | .double value => .ok (writeDouble value)
  | .text value => .ok (writeString value.toList)
  | .blob _ data => .ok (writeArray (data.map (fun b => intText b.toNat)))
  | .list items | .tuple items => (writeAll items).map writeArray
  | .map entries => writeObject (writeEntries entries)
  | .variant v =>
    match v.printFault? with
    | some fault => .error (.unprintable fault)
    | none => .ok (writeString (v.print false))
  | .foreign container => .ok (writeString (Native.foreignShown container.tag).toList)
  | .set items => .error (.unwritable (Native.set items).kindName)
  | .stream items mark => .error (.unwritable (Native.stream items mark).kindName)
  | .range a b c => .error (.unwritable (Native.range a b c).kindName)
  | .object mark => .error (.unwritable (Native.object mark).kindName)
  | .sigType type => .error (.unwritable (Native.sigType type).kindName)
  | .dictionary v mark => .error (.unwritable (Native.dictionary v mark).kindName)
termination_by structural x => x

/-- The texts of the values of a list, up to the first that has none. -/
def writeAll : List Native → Except WriteError (List (List Char))
  | [] => .ok []
  | x :: rest => do
    let first ← writeChars x
    return first :: (← writeAll rest)
termination_by structural items => items

def writeEntries : List (Native × Native) → List (Native × Except WriteError (List Char))
  | [] => []
  | (key, value) :: rest => (key, writeChars value) :: writeEntries rest
termination_by structural entries => entries

end

def write (x : Native) : Except WriteError String :=
  (writeChars x).map String.ofList

end TypedVariant.Json
