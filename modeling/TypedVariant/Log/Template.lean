import TypedVariant.Log.Layout
import TypedVariant.Error
import TypedVariant.Text.Character
import TypedVariant.Text.Word

/-! # Line templates

A template is text with placeholders for the parts of a record. A placeholder
names a part between `%(` and `)`, may ask for a least width and for more about
the layout, and ends in a conversion letter; `%%` stands for a percent sign. A
placeholder without a name takes what is there: at first the record as a whole,
and nothing once a part has been taken. A template without a single proper
placeholder is refused at once, and any other fault where the template is filled.
-/

namespace TypedVariant.Log

inductive TemplateFault
  | unfinishedName
  | unfinished
  | unsupported (conversion : Char) (position : Nat)
  | missingPart (name : List Char)
  | numberWanted (conversion : Char) (kind : String)
  | tooLarge
  | notACharacter
  | widthWanted
  | nothingLeft
  | widthTooBig
  | precisionTooBig
  | untold (cause : Error)

def TemplateFault.message : TemplateFault → String
  | unfinishedName => "incomplete format key"
  | unfinished => "incomplete format"
  | unsupported c position =>
      "unsupported format character \x27" ++
        String.singleton (if 31 ≤ c.toNat ∧ c.toNat ≤ 126 then c else '?') ++ "\x27 (0x" ++
        String.ofList (Nat.toDigits 16 c.toNat) ++ ") at index " ++ toString position
  | missingPart name =>
      "Formatting field not found in record: " ++ Text.shown (String.ofList name)
  | numberWanted conversion kind =>
      if conversion = 'c' then "%c requires int or char"
      else if isDecimalConversion conversion then "must be real number, not " ++ kind
      else
        "%" ++ String.singleton conversion ++ " format: " ++
          (if conversion = 'd' ∨ conversion = 'i' ∨ conversion = 'u' then "a real number"
            else "an integer") ++ " is required, not " ++ kind
  | tooLarge => "int too large to convert to float"
  | notACharacter => "%c arg not in range(0x110000)"
  | widthWanted => "* wants int"
  | nothingLeft => "not enough arguments for format string"
  | widthTooBig => "width too big"
  | precisionTooBig => "precision too big"
  | untold cause => cause.message

/-- What a placeholder asks for before its part is written, in order. -/
inductive Demand
  | count
  | fault (cause : TemplateFault)

/-- A place for a part. -/
structure Placeholder where
  /-- The part, or nothing where the placeholder takes what is there. -/
  name : Option (List Char)
  demands : List Demand
  layout : Layout
  position : Nat

inductive Piece
  | literal (c : Char)
  | placeholder (content : Placeholder)

namespace Placeholder

def isFlag (c : Char) : Bool :=
  ['#', '0', '+', ' ', '-'].contains c

/-- The name of a part up to the bracket that closes it, and what follows. -/
def takeName : (depth : Nat) → List Char → Option (List Char × List Char)
  | _, [] => none
  | 0, ')' :: rest => some ([], rest)
  | depth, c :: rest =>
    let next := if c = '(' then depth + 1 else if c = ')' then depth - 1 else depth
    (takeName next rest).map (fun (name, left) => (c :: name, left))

def number (digits : List Char) : Nat :=
  digits.foldl (fun n c => 10 * n + (c.toNat - 48)) 0

def widthLimit : Nat := Nat.pow 2 63 - 1

def precisionLimit : Nat := Nat.pow 2 31 - 1

/-- A count at the front of a text, what it demands, and what follows it. -/
def takeCount (limit : Nat) (fault : TemplateFault) (text : List Char) :
    Nat × List Demand × List Char :=
  match text with
  | '*' :: rest => (0, [.count], rest)
  | _ =>
    let digits := text.takeWhile Char.isDigit
    let n := number digits
    (if limit < n then 0 else n, if limit < n then [.fault fault] else [], text.drop digits.length)

/-- The placeholder at the front of a text behind its name, and what follows it. The text is the
end of a template of the given length. -/
def take (length : Nat) (name : Option (List Char)) (text : List Char) :
    Placeholder × List Char :=
  let flags := text.takeWhile isFlag
  let (width, widthDemands, sized) := takeCount widthLimit .widthTooBig (text.drop flags.length)
  let (precision, precisionDemands, rest) :=
    match sized with
    | '.' :: rest =>
      let (n, demands, left) := takeCount precisionLimit .precisionTooBig rest
      (some n, demands, left)
    | rest => (none, [], rest)
  let unmodified :=
    match rest with
    | c :: left => if c = 'h' ∨ c = 'l' ∨ c = 'L' then left else c :: left
    | [] => []
  let sign := if flags.contains '+' then ['+'] else if flags.contains ' ' then [' '] else []
  let layout (conversion : Char) : Layout :=
    ⟨flags.contains '-', flags.contains '0', sign, flags.contains '#', width, precision, conversion⟩
  let demands := widthDemands ++ precisionDemands
  match unmodified with
  | [] => (⟨name, demands ++ [.fault .unfinished], layout 's', length⟩, [])
  | conversion :: left => (⟨name, demands, layout conversion, length - left.length - 1⟩, left)

/-- What is there for placeholders without a name to take. -/
abbrev Supply := Option Native

/-- What is there at first: the record as a whole, which is told like an empty map. -/
def wholeRecord : Supply :=
  some (.map [])

/-- Meets a demand from what is there. -/
def meet (supply : Supply) : Demand → Except TemplateFault Supply
  | .fault cause => .error cause
  | .count =>
    match supply with
    | some (.int _) => .ok none
    | some _ => .error .widthWanted
    | none => .error .nothingLeft

/-- A text without letters beyond ASCII, which are written as escapes. -/
def asciiOnly (text : List Char) : List Char :=
  text.flatMap (fun c => if c.toNat < 128 then [c] else Text.showCode c.toNat)

def integerText (layout : Layout) (position : Nat) (z : Int) :
    Except TemplateFault (List Char) :=
  let c := layout.conversion
  if isIntegerConversion c then
    if c ∈ ['d', 'i', 'u'] ∧ Numeral.isOverlong z then .error (.untold .overlongInteger)
    else .ok (layout.integerText z)
  else if isDecimalConversion c then
    match layout.decimalText? z with
    | some text => .ok text
    | none => .error .tooLarge
  else if c = 'c' then
    if 0 ≤ z ∧ z < 0x110000 then .ok (layout.widen [] [Char.ofNat z.toNat])
    else .error .notACharacter
  else .error (.unsupported c position)

def valueText (layout : Layout) (position : Nat) (x : Native) :
    Except TemplateFault (List Char) :=
  let cut (text : String) : List Char :=
    layout.widen [] (match layout.precision with
      | some n => text.toList.take n
      | none => text.toList)
  match layout.conversion, x with
  | 's', _ => (x.display.map cut).mapError .untold
  | 'r', _ => (x.displayShown.map cut).mapError .untold
  | 'a', _ =>
    (x.displayShown.map (fun s => cut (String.ofList (asciiOnly s.toList)))).mapError .untold
  | _, .int z => integerText layout position z
  | c, _ =>
    if c = 'c' then
      match x with
      | .text s =>
        if s.length = 1 then .ok (layout.widen [] s.toList)
        else .error (.numberWanted c x.kindName)
      | _ => .error (.numberWanted c x.kindName)
    else if isIntegerConversion c || isDecimalConversion c then
      .error (.numberWanted c x.kindName)
    else .error (.unsupported c position)

/-- The text of a placeholder, given the parts and what is there; all of it is taken. -/
def filled (part : List Char → Option Native) (supply : Supply) (p : Placeholder) :
    Except TemplateFault (List Char) := do
  let named ←
    match p.name with
    | none => pure supply
    | some name =>
      match part name with
      | none => throw (.missingPart name)
      | some x => pure (some x)
  match ← p.demands.foldlM meet named with
  | none => throw .nothingLeft
  | some x => valueText p.layout p.position x

end Placeholder

namespace Piece

/-- What stands for a name that does not end. -/
def unfinishedName (length : Nat) : Piece :=
  let (content, _) := Placeholder.take length none []
  placeholder { content with demands := [.fault .unfinishedName] }

/-- The pieces of a text that is the end of a template of the given length. What is no placeholder
stands for itself. The fuel bounds the number of pieces. -/
def ofCharsWithin (length : Nat) : (fuel : Nat) → List Char → List Piece
  | 0, _ => []
  | _ + 1, [] => []
  | fuel + 1, '%' :: '%' :: rest => literal '%' :: ofCharsWithin length fuel rest
  | fuel + 1, '%' :: '(' :: rest =>
    match Placeholder.takeName 0 rest with
    | none => [unfinishedName length]
    | some (name, text) =>
      let (content, left) := Placeholder.take length (some name) text
      placeholder content :: ofCharsWithin length fuel left
  | fuel + 1, '%' :: rest =>
    let (content, left) := Placeholder.take length none rest
    placeholder content :: ofCharsWithin length fuel left
  | fuel + 1, c :: rest => literal c :: ofCharsWithin length fuel rest

def fillFrom (part : List Char → Option Native) (supply : Placeholder.Supply) :
    List Piece → Except TemplateFault (List Char)
  | [] => .ok []
  | literal c :: rest => (fillFrom part supply rest).map (c :: ·)
  | placeholder content :: rest => do
    let text ← content.filled part supply
    return text ++ (← fillFrom part none rest)

end Piece

/-- Whether a letter is one of the conversions, in either case. -/
def isConversion (c : Char) : Bool :=
  "diouxefgcrsa%ıſİ".toList.contains c.toLower

/-- Whether a text begins like a placeholder behind its `%(`: its name is a word. -/
def beginsPlaceholder (text : List Char) : Bool :=
  let isDigit (c : Char) : Bool := (Text.digitValue? c).isSome
  let number (text : List Char) : List Char :=
    match text with
    | '*' :: rest => rest
    | _ => text.dropWhile isDigit
  let name := text.takeWhile Text.isWordCharacter
  match name, text.drop name.length with
  | _ :: _, ')' :: rest =>
    let afterWidth := number (rest.dropWhile Placeholder.isFlag)
    let afterPrecision :=
      match afterWidth with
      | '.' :: rest => if number rest == rest then afterWidth else number rest
      | _ => afterWidth
    match afterPrecision with
    | c :: _ => isConversion c
    | [] => false
  | _, _ => false

/-- Whether a template has a proper placeholder at all. -/
def hasPlaceholder : List Char → Bool
  | [] => false
  | '%' :: '(' :: rest => beginsPlaceholder rest || hasPlaceholder ('(' :: rest)
  | _ :: rest => hasPlaceholder rest

def unusableTemplate (text : String) : String :=
  "Invalid format \x27" ++ text ++ "\x27 for \x27%\x27 style"

/-- The template in the place of an empty one. -/
def plainTemplate : String := "%(message)s"

def template? (text : String) : Option (List Piece) :=
  let given := if text.isEmpty then plainTemplate else text
  if hasPlaceholder given.toList then
    some (Piece.ofCharsWithin given.length given.length given.toList)
  else none

def defaultTemplate : String := "%(levelname)s:%(name)s:%(message)s"

def fill (template : List Piece) (part : List Char → Option Native) :
    Except TemplateFault (List Char) :=
  Piece.fillFrom part Placeholder.wholeRecord template

end TypedVariant.Log
