import TypedVariant.Native.Basic
import TypedVariant.Variant.Printer

/-! # Native values as diagnostics show them -/

namespace TypedVariant

/-- Items with a comma and a space between them. -/
def commaSeparated (items : List String) : String :=
  String.intercalate ", " items

/-- Items between parentheses; a comma follows an item that is the only one. -/
def parenthesized : List String → String
  | [only] => "(" ++ only ++ ",)"
  | items => "(" ++ commaSeparated items ++ ")"

namespace SigType

mutual

def shown : SigType → String
  | basic code => "BasicType(code=" ++ Text.shown (String.singleton code.letter) ++ ")"
  | variant => "VariantType()"
  | maybe element => "MaybeType(element=" ++ element.shown ++ ")"
  | array element => "ArrayType(element=" ++ element.shown ++ ")"
  | tuple members => "TupleType(children=" ++ parenthesized (shownAll members) ++ ")"
  | dictEntry key value => "DictEntryType(key=" ++ key.shown ++ ", value=" ++ value.shown ++ ")"
  | wildcard kind => "WildcardType(code=" ++ Text.shown (String.singleton kind.letter) ++ ")"
  | unlisted text => "BasicType(code=" ++ Text.shown text ++ ")"
  | unlistedWildcard text => "WildcardType(code=" ++ Text.shown text ++ ")"

def shownAll : List SigType → List String
  | [] => []
  | type :: rest => type.shown :: shownAll rest

end

end SigType

namespace Native

def foreignShown (tag : String) : String :=
  "<foreign " ++ tag ++ ">"

mutual

def shown : Native → String
  | null => "None"
  | bool value => if value then "True" else "False"
  | int value => toString value
  | double value => value.written
  | text value => Text.shown value
  | blob .fixed data => Text.shownBytes data
  | blob .growable data => Text.shownBuffer data
  | blob .view _ => "<memory>"
  | list items => "[" ++ commaSeparated (shownAll items) ++ "]"
  | tuple items => parenthesized (shownAll items)
  | map entries => "\x7b" ++ commaSeparated (shownEntries entries) ++ "\x7d"
  | set items =>
      if items.isEmpty then "set()" else "\x7b" ++ commaSeparated (shownAll items) ++ "\x7d"
  | stream _ _ => "<list_iterator object>"
  | range start stop step =>
      "range(" ++ toString start ++ ", " ++ toString stop ++
        (if step = 1 then "" else ", " ++ toString step) ++ ")"
  | object _ => "<object object>"
  | sigType type => type.shown
  | variant v => v.shown
  | dictionary _ _ => "<VariantDict object>"
  | foreign container => foreignShown container.tag
termination_by structural x => x

def shownAll : List Native → List String
  | [] => []
  | x :: rest => x.shown :: shownAll rest
termination_by structural items => items

def shownEntries : List (Native × Native) → List String
  | [] => []
  | (key, value) :: rest => (key.shown ++ ": " ++ value.shown) :: shownEntries rest
termination_by structural entries => entries

end

mutual

/-- The first part of a value, in the order of showing, that cannot be printed. -/
def printFault? : Native → Option PrintFault
  | variant v => v.printFault?
  | list items | tuple items | set items => firstPrintFault? items
  | map entries => entryPrintFault? entries
  | int value => PrintFault.ofInteger? value
  | range start stop step =>
    ((PrintFault.ofInteger? start).or (PrintFault.ofInteger? stop)).or
      (if step = 1 then none else PrintFault.ofInteger? step)
  | null | bool _ | double _ | text _ | blob _ _ | stream _ _ | object _ | sigType _
  | dictionary _ _ | foreign _ => none
termination_by structural x => x

def firstPrintFault? : List Native → Option PrintFault
  | [] => none
  | x :: rest => x.printFault?.or (firstPrintFault? rest)
termination_by structural items => items

def entryPrintFault? : List (Native × Native) → Option PrintFault
  | [] => none
  | (key, value) :: rest => (key.printFault?.or value.printFault?).or (entryPrintFault? rest)
termination_by structural entries => entries

end

/-- A native value as text: text is itself, a type is its signature, a variant its printed form,
and everything else as diagnostics show it. -/
def asText : Native → String
  | text value => value
  | sigType type => type.text
  | variant v => v.printed false
  | x => x.shown

end Native

end TypedVariant
