import TypedVariant.Double.Written
import TypedVariant.Native.Basic
import TypedVariant.Text.Numeral
import TypedVariant.Text.Quoted

/-! # The printed form of variants

Plain text shows values as literals; with annotations, a value whose type is not
evident from its literal carries a type word or a type string in front. Boxes
are printed between angle brackets and always annotate their content, so that
the content's type can be read off. In arrays only the first element carries
annotations, since the others share its type.

What a foreign container holds only its own program could print, what a variant
of an unknown type holds need not be what its type string announces, and an
integer may have too many digits. A variant that holds such a part has no text;
`printFault?` finds the first one.
-/

namespace TypedVariant

/-- The word in front of an annotated integer; 32-bit signed integers need none. -/
def IntegerCode.annotationWord? : IntegerCode → Option String
  | .int32 => none
  | code => some code.word

/-- The word in front of annotated text; plain strings need none. -/
def TextCode.annotationWord? : TextCode → Option String
  | .string => none
  | .objectPath => some "objectpath"
  | .signature => some "signature"

def BasicCode.accessor : BasicCode → String
  | boolean => "get_boolean"
  | integer code => "get_" ++ code.word
  | double => "get_double"
  | text _ => "get_string"

namespace Foreign

/-- What a foreign container is asked for first, given what is asked of arrays and of dictionary
entries; a tag that is not in the alphabet asks for nothing. -/
def request? (ofArray ofEntry : String) (f : Foreign) : Option String :=
  match f.tag.toList with
  | [c] =>
    match BasicCode.ofLetter? c, c with
    | some code, _ => some code.accessor
    | none, 'v' => some "get_variant"
    | none, 'm' => some "get_maybe"
    | none, 'a' => some ofArray
    | none, '(' => some "n_children"
    | none, '{' => some ofEntry
    | none, _ => none
  | _ => none

def printRequest? (f : Foreign) : Option String :=
  f.request? "n_children" "get_child_value"

def unpackRequest? (f : Foreign) : Option String :=
  f.request? "is_of_type" "n_children"

end Foreign

inductive PrintFault
  | foreign (operation : String)
  /-- There is no tag to go by. -/
  | untagged
  /-- The tag is that of another type. -/
  | wrongTag (accessor type : String)
  /-- The content is to be a container and is not. -/
  | notAContainer (kind : String)
  /-- The content is to have parts and has none. -/
  | partless (kind : String)
  | overlongInteger
  deriving DecidableEq, Repr

def PrintFault.ofInteger? (z : Int) : Option PrintFault :=
  if Numeral.isOverlong z then some .overlongInteger else none

/-- What is wrong with the content of a variant of an unknown type, by what its tag announces. A
tag that announces nothing leaves nothing to be wrong. -/
def PrintFault.ofUnknown? (typeString : String) (content : Native) : Option PrintFault :=
  match typeString.toList with
  | [] => some .untagged
  | c :: rest =>
    match BasicCode.ofLetter? c with
    | some code => if rest.isEmpty then none else some (.wrongTag code.accessor typeString)
    | none =>
      if c = 'v' ∧ !rest.isEmpty then some (.wrongTag "get_variant" typeString)
      else if c = 'v' ∨ c = 'm' then some (.notAContainer content.kindName)
      else if c = 'a' ∨ c = '(' ∨ c = '{' then some (.partless content.kindName)
      else none

namespace Variant

/-- A literal, with a word in front when annotations are wanted and the type has one. -/
def annotated (annotate : Bool) (word? : Option String) (literal : List Char) : List Char :=
  match annotate, word? with
  | true, some word => word.toList ++ ' ' :: literal
  | _, _ => literal

/-- A literal, with a type string in front when annotations are wanted. -/
def typed (annotate : Bool) (type literal : List Char) : List Char :=
  if annotate then '@' :: (type ++ ' ' :: literal) else literal

def byteLiteral (n : Nat) : List Char :=
  '0' :: 'x' :: Text.hex 2 n

def integerLiteral (code : IntegerCode) (value : Int) : List Char :=
  match code with
  | .byte => byteLiteral value.toNat
  | _ => (toString value).toList

/-- Whether a blob ends in its only unprintable byte, a NUL, so that it prints as text. -/
def isPrintableBlob (blob : List UInt8) : Bool :=
  match blob.reverse with
  | last :: body => last == 0 && body.all (fun b => decide (0x20 ≤ b ∧ b < 0x7F))
  | [] => false

def printBlob (annotate : Bool) (blob : List UInt8) : List Char :=
  if isPrintableBlob blob then
    'b' :: Text.Quoted.encode (blob.dropLast.map (fun b => Char.ofNat b.toNat))
  else
    match blob.map (fun b => byteLiteral b.toNat) with
    | [] => typed annotate ['a', 'y'] ['[', ']']
    | first :: rest =>
      '[' :: ([',', ' '].intercalate (("byte ".toList ++ first) :: rest) ++ [']'])

/-- What stands for a container whose tag is not in the alphabet. -/
def unprintable (typeString : String) : List Char :=
  "<unprintable ".toList ++ (Text.shown typeString).toList ++ ['>']

/-- The members of a tuple; a comma follows a member that is the only one. -/
def tupleBody : List (List Char) → List Char
  | [only] => only ++ [',']
  | members => [',', ' '].intercalate members

mutual

/-- The printed form of a variant. -/
def print (annotate : Bool) : Variant → List Char
  | boolean value => if value then "true".toList else "false".toList
  | integer code value => annotated annotate code.annotationWord? (integerLiteral code value)
  | double value => value.written.toList
  | text code value => annotated annotate code.annotationWord? (Text.Quoted.encode value.toList)
  | box content => '<' :: (content.print true ++ ['>'])
  | foreignBox content => '<' :: (unprintable content.tag ++ ['>'])
  | nothing element => typed annotate ('m' :: element.toList) "nothing".toList
  | just content =>
      -- Only in front of another maybe is a word needed to tell the two apart.
      if content.tag? = some 'm' then "just ".toList ++ content.print annotate
      else content.print annotate
  | bytes blob => printBlob annotate blob
  | array element items =>
      let isDictionary := element.toList.take 1 == ['{']
      if items.isEmpty then
        typed annotate ('a' :: element.toList) (if isDictionary then ['{', '}'] else ['[', ']'])
      else if isDictionary then
        '{' :: ([',', ' '].intercalate (printEntries annotate items) ++ ['}'])
      else '[' :: ([',', ' '].intercalate (printAll annotate false items) ++ [']'])
  | tuple members => '(' :: (tupleBody (printAll annotate annotate members) ++ [')'])
  | entry key value =>
      '{' :: (key.print annotate ++ [',', ' '] ++ value.print annotate ++ ['}'])
  | unknown typeString _ => unprintable typeString
termination_by structural v => v

/-- The printed forms of several variants; the first may be annotated unlike the others. -/
def printAll (annotateFirst annotateRest : Bool) : List Variant → List (List Char)
  | [] => []
  | v :: rest => v.print annotateFirst :: printAll annotateRest annotateRest rest
termination_by structural items => items

/-- The entries of a dictionary, each as key, colon and value. -/
def printEntries (annotateFirst : Bool) : List Variant → List (List Char)
  | [] => []
  | entry key value :: rest =>
      (key.print annotateFirst ++ [':', ' '] ++ value.print annotateFirst) ::
        printEntries false rest
  | v :: rest => v.print annotateFirst :: printEntries false rest
termination_by structural items => items

end

mutual

/-- The first part of a variant, in the order of printing, that cannot be printed. -/
def printFault? : Variant → Option PrintFault
  | box content | just content => content.printFault?
  -- Hexadecimal digits are not limited.
  | integer code value => if code = .byte then none else PrintFault.ofInteger? value
  | foreignBox content => content.printRequest?.map .foreign
  | array _ items | tuple items => firstPrintFault? items
  | entry key value => key.printFault?.or value.printFault?
  | unknown typeString content => PrintFault.ofUnknown? typeString content
  | boolean _ | double _ | text _ _ | nothing _ | bytes _ => none
termination_by structural v => v

def firstPrintFault? : List Variant → Option PrintFault
  | [] => none
  | v :: rest => v.printFault?.or (firstPrintFault? rest)
termination_by structural items => items

end

def printed (v : Variant) (annotate : Bool) : String :=
  String.ofList (v.print annotate)

/-- How a diagnostic shows a variant: its type string and its plain printed form. -/
def shown (v : Variant) : String :=
  "<Variant " ++ Text.shown v.typeString ++ " " ++ v.printed false ++ ">"

end Variant

end TypedVariant
