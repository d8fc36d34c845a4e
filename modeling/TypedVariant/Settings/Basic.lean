import TypedVariant.Native.Coercion
import TypedVariant.Text.Lower

/-! # Settings

Two settings bear on packing and unpacking: how deep types and values may nest,
and how text is encoded when it is packed as bytes. They are built from named
native values. Which values are taken for an integer is a matter of the coercion
in use, and which encodings are known a matter of the installed codecs; an
encoding is given by any of its names. What is stored is the plain form, with the
encoding's name stripped and in lower case.
-/

namespace TypedVariant

def defaultTextEncoding : String := "utf-8"

/-- The limits of packing and unpacking. -/
structure Settings where
  /-- The deepest nesting allowed; the outermost type is at depth zero. -/
  maxDepth : Int := defaultMaxDepth
  /-- The name of the encoding of text that is packed as bytes. -/
  textEncoding : String := defaultTextEncoding
  deriving DecidableEq, Repr

/-- The coercion of settings: the integer for which a value is taken where one is wanted. Nothing is
known of it but that an integer is taken for itself. -/
class Coercion where
  integer? : Native → Option Int
  integer?_int : ∀ n, integer? (.int n) = some n

namespace Standard

/-- The white space that may stand around a numeral: that of Unicode, without the information
separators. -/
def isNumeralBlank (c : Char) : Bool :=
  Text.isBlank c && !(decide (0x1C ≤ c.toNat) && decide (c.toNat ≤ 0x1F))

/-- A numeral without zeros, or underscores among them, in front of its first other digit. -/
def dropLeadingZeros (text : List Char) : Option (List Char) :=
  match text with
  | '0' :: rest =>
    let skipped := rest.takeWhile (fun c => c == '0' || c == '_')
    match rest.drop skipped.length with
    | [] => some [(('0' :: skipped).getLast?).getD '0']
    | '.' :: left => some (('0' :: skipped).getLastD '0' :: '.' :: left)
    | c :: left => if c.isDigit then some (c :: left) else none
  | c :: _ => if c.isDigit || c == '-' then some text else none
  | [] => none

/-- A numeral without a decimal part that is zero. A point without decimals stays. -/
def dropZeroDecimals (text : List Char) : List Char :=
  let whole := text.takeWhile (· != '.')
  let decimals := text.drop (whole.length + 1)
  if !decimals.isEmpty && decimals.all (· == '0') then whole else text

/-- A numeral without single underscores inside. -/
def dropUnderscores (text : List Char) : List Char :=
  let doubled := (text.zip (text.drop 1)).any (fun (a, b) => a == '_' && b == '_')
  if text.head? == some '_' || text.getLast? == some '_' || doubled then text
  else text.filter (· != '_')

/-- The integer of plain digits with an optional sign. -/
def plainInteger? (text : List Char) : Option Int :=
  let (negative, digits) := Numeral.takeSign text
  if digits.isEmpty || !digits.all Char.isDigit then none
  else
    let n : Int := Numeral.ofDigits digits
    some (if negative then -n else n)

def numeral? (text : List Char) : Option Int :=
  let stripped := Text.strip isNumeralBlank text
  let unsigned :=
    match stripped with
    | '+' :: '-' :: _ => none
    | '+' :: rest => some rest
    | rest => some rest
  if Numeral.digitLimit < stripped.length then none
  else
    unsigned.bind (fun body =>
      (dropLeadingZeros body).bind (fun digits =>
        plainInteger? (dropUnderscores (dropZeroDecimals digits))))

/-- The integer that a value says: a truth value, a double without fraction, or a numeral in text or
bytes. -/
def integerOf? : Native → Option Int
  | .bool value => some (if value then 1 else 0)
  | .int value => some value
  | .double value => value.whole?
  | .text value => numeral? value.toList
  | .blob .fixed data =>
    (String.fromUTF8? (ByteArray.mk data.toArray)).bind (fun text => numeral? text.toList)
  | _ => none

/-- An integer is taken from every value that says one. -/
scoped instance coercion : Coercion where
  integer? := integerOf?
  integer?_int _ := rfl

end Standard

namespace Settings

def maxDepthName : String := "max_depth"

def textEncodingName : String := "text_encoding"

def maxDepthOf? [Coercion] (x : Native) : Option Int :=
  (Coercion.integer? x).filter (fun n => decide (1 ≤ n ∧ n ≤ maxDepthLimit))

/-- The name of an installed codec that a value stands for. No name is empty or holds the null
character. -/
def textEncodingOf? [Codecs] : Native → Option String
  | .text value =>
    let name := Text.trim value
    if !name.isEmpty && !name.contains '\x00' && (Codecs.find? name).isSome then
      some (Text.lower name)
    else none
  | _ => none

def field? (name : String) (values : List (String × Native)) : Option Native :=
  (values.find? (·.1 == name)).map Prod.snd

def isFieldName (name : String) : Bool :=
  name == maxDepthName || name == textEncodingName

def foreignNames (values : List (String × Native)) : List String :=
  (values.map Prod.fst).filter (!isFieldName ·)

/-- Changes the fields that are named, or lists the fields that are refused. A change checks the
field that it keeps as well: in lower case, the name of an encoding may no longer be one. Where no
field is named, nothing is checked. -/
def update [Codecs] [Coercion] (base : Settings) (values : List (String × Native)) :
    Except (List String) Settings :=
  if (values.map Prod.fst).any isFieldName then
    let depth := (field? maxDepthName values).getD (.int base.maxDepth)
    let encoding := (field? textEncodingName values).getD (.text base.textEncoding)
    match maxDepthOf? depth, textEncodingOf? encoding with
    | some maxDepth, some textEncoding => .ok { maxDepth, textEncoding }
    | maxDepth, textEncoding =>
      .error ((if maxDepth.isNone then [maxDepthName] else []) ++
        (if textEncoding.isNone then [textEncodingName] else []))
  else .ok base

/-- Settings with the named fields and defaults elsewhere, or the names that are refused, among
them those that are not fields. -/
def ofFields [Codecs] [Coercion] (values : List (String × Native)) :
    Except (List String) Settings :=
  let foreign := foreignNames values
  let refused (names : List String) : List String :=
    (names ++ foreign).mergeSort (fun a b => decide (a ≤ b))
  match update {} values with
  | .error names => .error (refused names)
  | .ok settings => if foreign.isEmpty then .ok settings else .error (refused [])

/-- Whether a name is left to the holder of the settings, who may keep anything under it. -/
def isPrivateName (name : String) : Bool :=
  name.startsWith "_"

/-- Assigns named values one by one. Settings cannot be changed in place: the first name that is
not private is refused. -/
def assign (base : Settings) (values : List (String × Native)) : Except (List String) Settings :=
  match (values.map Prod.fst).find? (!isPrivateName ·) with
  | some name => .error [name]
  | none => .ok base

end Settings

end TypedVariant
