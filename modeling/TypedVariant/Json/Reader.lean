import TypedVariant.Json.Token
import TypedVariant.Native.Equality

/-! # Reading JSON

The reader takes the tokens one after the other and keeps the arrays and objects
that are open. The first token that does not fit what is expected is refused
with its position; the end of the text counts as such a token.
-/

namespace TypedVariant.Json

/-- An array or object that is open, with what has been read of it, the latest item first. -/
inductive Frame
  | array (items : List Native)
  | object (entries : List (Native × Native)) (key : List Char)

inductive Expecting
  | value (within : List Frame)
  | firstItem (within : List Frame)
  | firstKey (within : List Frame)
  | key (entries : List (Native × Native)) (within : List Frame)
  | colon (entries : List (Native × Native)) (key : List Char) (within : List Frame)
  /-- A comma, or the end of the innermost array. -/
  | moreItems (items : List Native) (within : List Frame)
  /-- A comma, or the end of the innermost object. -/
  | moreEntries (entries : List (Native × Native)) (within : List Frame)
  | nothing (result : Native)

def supply (x : Native) : List Frame → Expecting
  | [] => .nothing x
  | .array items :: outer => .moreItems (x :: items) outer
  | .object entries key :: outer =>
    .moreEntries (Native.insert (.text (String.ofList key)) x entries) outer

def wordValue : Word → Native
  | .null => .null
  | .yes => .bool true
  | .no => .bool false
  | .nan => .double (.nan 0)
  | .infinity => .double (.infinity false)
  | .minusInfinity => .double (.infinity true)

/-- What a token leads to where a value is expected. -/
def beginValue (within : List Frame) : Token → Except Reason Expecting
  | .word word => .ok (supply (wordValue word) within)
  | .integer value =>
    if Numeral.isOverlong value then .error (.overlongInteger (Numeral.digitCount value))
    else .ok (supply (.int value) within)
  | .double value => .ok (supply (.double value) within)
  | .string value => .ok (supply (.text (String.ofList value)) within)
  | .mark .openArray => .ok (.firstItem within)
  | .mark .openObject => .ok (.firstKey within)
  | _ => .error .valueExpected

def advance : Expecting → Token → Except Reason Expecting
  | .value within, token => beginValue within token
  | .firstItem within, .mark .closeArray => .ok (supply (.list []) within)
  | .firstItem within, token => beginValue (.array [] :: within) token
  | .firstKey within, .mark .closeObject => .ok (supply (.map []) within)
  | .firstKey within, .string key => .ok (.colon [] key within)
  | .firstKey _, _ => .error .keyExpected
  | .key entries within, .string key => .ok (.colon entries key within)
  | .key _ _, _ => .error .keyExpected
  | .colon entries key within, .mark .colon => .ok (.value (.object entries key :: within))
  | .colon _ _ _, _ => .error .colonExpected
  | .moreItems items within, .mark .comma => .ok (.value (.array items :: within))
  | .moreItems items within, .mark .closeArray => .ok (supply (.list items.reverse) within)
  | .moreItems _ _, _ => .error .commaExpected
  | .moreEntries entries within, .mark .comma => .ok (.key entries within)
  | .moreEntries entries within, .mark .closeObject => .ok (supply (.map entries) within)
  | .moreEntries _ _, _ => .error .commaExpected
  | .nothing _, _ => .error .extraData

/-- Whether a string may stand next, so that a malformed one is refused for itself. -/
def Expecting.allowsString : Expecting → Bool
  | value _ | firstItem _ | firstKey _ | key _ _ => true
  | colon _ _ _ | moreItems _ _ | moreEntries _ _ | nothing _ => false

/-- Reads on through the tokens of a text of the given length. -/
def readTokens (length : Nat) : Expecting → List (Token × Nat) → Except Fault Native
  | expecting, [] =>
    match expecting with
    | .nothing result => .ok result
    | _ =>
      -- At the end of the text the reason is that of any token that does not fit.
      match advance expecting .bad with
      | .ok _ => .error ⟨.valueExpected, length⟩
      | .error reason => .error ⟨reason, length⟩
  | expecting, (token, position) :: rest =>
    match token, expecting.allowsString with
    | .badString fault, true => .error fault
    | _, _ =>
      match advance expecting token with
      | .ok next => readTokens length next rest
      | .error reason => .error ⟨reason, position⟩

/-- The value that a JSON text stands for. -/
def readChars (text : List Char) : Except Fault Native :=
  match text with
  | '\uFEFF' :: _ => .error ⟨.byteOrderMark, 0⟩
  | _ => readTokens text.length (.value []) (tokens text)

def read (text : String) : Except Fault Native :=
  readChars text.toList

/-- A fault as text, with line and column, both counted from one. Of an integer of too many digits
it is not said where it stands. -/
def Fault.message (text : String) (fault : Fault) : String :=
  let before := text.toList.take fault.position
  let line := before.count '\n' + 1
  let column := (before.reverse.takeWhile (· != '\n')).length + 1
  let place := ": line " ++ toString line ++ " column " ++ toString column ++
    " (char " ++ toString fault.position ++ ")"
  match fault.reason with
  | .overlongInteger digits => Reason.message (.overlongInteger digits)
  | reason => reason.message ++ place

end TypedVariant.Json
