import TypedVariant.Native.Equality
import TypedVariant.Settings.Moment
import TypedVariant.Text.Character
import TypedVariant.Text.Numeral

/-! # Configuration files in TOML

A file is read to a map of native values: tables become maps, arrays lists. Each
step of the reader gives a value and the text that follows it, or nothing where
the text is malformed; where a value is read, an integer of too many digits is
refused by itself. Keys and tables may not be defined twice, and what an
inline table or an array defines is closed to later additions. Nothing is kept
of dates and times but that they are there.
-/

namespace TypedVariant.Toml

/-- Why a text is not the content of a file. -/
inductive Fault
  | malformed
  | overlongInteger (digits : Nat)
  deriving DecidableEq, Repr

/-- What must be there for the text to be well formed. -/
def required {α : Type} : Option α → Except Fault α
  | some a => .ok a
  | none => .error .malformed

/-- The members of a table, in the order of their definition. -/
abbrev Table := List (Native × Native)

def isBlank (c : Char) : Bool := c == ' ' || c == '\t'

def isBareKeyChar (c : Char) : Bool := c.isAlphanum || c == '_' || c == '-'

/-- Control characters may not occur, except the tab. -/
def isControl (c : Char) : Bool :=
  (decide (c.toNat < 0x20) && c != '\t') || c.toNat == 0x7F

def skipBlanks (text : List Char) : List Char := text.dropWhile isBlank

/-- The text behind a comment, up to the end of the line; other text is left as it is. -/
def skipComment : List Char → Option (List Char)
  | '#' :: rest =>
    let comment := rest.takeWhile (· != '\n')
    if comment.any isControl then none else some (rest.drop comment.length)
  | text => some text

def ofHex (digits : List Char) : Option Nat :=
  digits.foldlM (fun n c => (Text.hexValue? c).map (16 * n + ·)) 0

def scanCode (width : Nat) (text : List Char) : Option (Char × List Char) := do
  let digits := text.take width
  if digits.length < width then none
  else
    let n ← ofHex digits
    if n < 0xD800 ∨ (0xE000 ≤ n ∧ n < 0x110000) then some (Char.ofNat n, text.drop width) else none

/-- The character of an escape, of which the backslash has been read. -/
def scanEscape : List Char → Option (Char × List Char)
  | 'b' :: rest => some ('\x08', rest)
  | 't' :: rest => some ('\t', rest)
  | 'n' :: rest => some ('\n', rest)
  | 'f' :: rest => some ('\x0c', rest)
  | 'r' :: rest => some ('\r', rest)
  | '"' :: rest => some ('"', rest)
  | '\\' :: rest => some ('\\', rest)
  | 'u' :: rest => scanCode 4 rest
  | 'U' :: rest => scanCode 8 rest
  | _ => none

/-- A string on one line, behind its opening quotation mark. -/
def scanBasic : (fuel : Nat) → List Char → Option (List Char × List Char)
  | 0, _ => none
  | fuel + 1, text =>
    match text with
    | '"' :: rest => some ([], rest)
    | '\\' :: rest => do
      let (c, rest) ← scanEscape rest
      let (cs, rest) ← scanBasic fuel rest
      return (c :: cs, rest)
    | c :: rest =>
      if isControl c then none
      else do
        let (cs, rest) ← scanBasic fuel rest
        return (c :: cs, rest)
    | [] => none

/-- A backslash at the end of a line joins it with what follows the blanks and line feeds. -/
def joinLines? (text : List Char) : Option (List Char) :=
  match skipBlanks text with
  | '\n' :: rest => some (rest.dropWhile (fun c => isBlank c || c == '\n'))
  | _ => none

/-- The end of a string on several lines: three quotes, before which up to two more belong to the
content. -/
def closing? (quote : Char) (text : List Char) : Option (List Char × List Char) :=
  let count := (text.takeWhile (· == quote)).length
  if 3 ≤ count then
    let extra := min (count - 3) 2
    some (List.replicate extra quote, text.drop (3 + extra))
  else none

/-- A string on several lines, behind its opening quotation marks; a literal one has no escapes. -/
def scanMultiline (quote : Char) (literal : Bool) :
    (fuel : Nat) → List Char → Option (List Char × List Char)
  | 0, _ => none
  | fuel + 1, text =>
    match closing? quote text with
    | some found => some found
    | none =>
      match text with
      | [] => none
      | c :: rest =>
        if c = '\\' ∧ !literal then
          match joinLines? rest with
          | some rest => scanMultiline quote literal fuel rest
          | none => do
            let (d, rest) ← scanEscape rest
            let (cs, rest) ← scanMultiline quote literal fuel rest
            return (d :: cs, rest)
        else if isControl c && c != '\n' then none
        else do
          let (cs, rest) ← scanMultiline quote literal fuel rest
          return (c :: cs, rest)

/-- A literal string on one line, behind its opening quote. -/
def scanLiteral (text : List Char) : Option (List Char × List Char) :=
  let content := text.takeWhile (· != '\x27')
  if content.any isControl || content.length == text.length then none
  else some (content, text.drop (content.length + 1))

/-- The text without a line feed at its front. -/
def dropLineFeed : List Char → List Char
  | '\n' :: rest => rest
  | text => text

def scanString (text : List Char) : Option (List Char × List Char) :=
  match text with
  | '"' :: '"' :: '"' :: rest => scanMultiline '"' false text.length (dropLineFeed rest)
  | '"' :: rest => scanBasic text.length rest
  | '\x27' :: '\x27' :: '\x27' :: rest =>
    scanMultiline '\x27' true text.length (dropLineFeed rest)
  | '\x27' :: rest => scanLiteral rest
  | _ => none

def scanKeyPart (text : List Char) : Option (String × List Char) :=
  match text with
  | '"' :: rest => (scanBasic text.length rest).map (fun (cs, rest) => (String.ofList cs, rest))
  | '\x27' :: rest => (scanLiteral rest).map (fun (cs, rest) => (String.ofList cs, rest))
  | _ =>
    let name := text.takeWhile isBareKeyChar
    if name.isEmpty then none else some (String.ofList name, text.drop name.length)

/-- A key: parts with points between them. -/
def scanKey : (fuel : Nat) → List Char → Option (List String × List Char)
  | 0, _ => none
  | fuel + 1, text => do
    let (part, rest) ← scanKeyPart text
    match skipBlanks rest with
    | '.' :: rest =>
      let (parts, rest) ← scanKey fuel (skipBlanks rest)
      return (part :: parts, rest)
    | rest => return ([part], rest)

/-- Digits with single underscores between them, and what follows. -/
def scanDigits (isDigit : Char → Bool) : List Char → List Char × List Char
  | c :: '_' :: d :: rest =>
    if isDigit c && isDigit d then
      let (digits, left) := scanDigits isDigit (d :: rest)
      (c :: digits, left)
    else if isDigit c then ([c], '_' :: d :: rest)
    else ([], c :: '_' :: d :: rest)
  | c :: rest =>
    if isDigit c then
      let (digits, left) := scanDigits isDigit rest
      (c :: digits, left)
    else ([], c :: rest)
  | [] => ([], [])

def scanBased (base : Nat) (text : List Char) : Option (Native × List Char) :=
  let isDigit (c : Char) : Bool :=
    match Text.hexValue? c with
    | some n => decide (n < base)
    | none => false
  let (digits, rest) := scanDigits isDigit text
  if digits.isEmpty then none
  else
    let n := digits.foldl (fun n c => base * n + (Text.hexValue? c).getD 0) 0
    some (.int n, rest)

/-- A decimal number: an integer without leading zeros, and a fraction and an exponent if they
are complete. -/
def scanDecimal (text : List Char) : Option (Native × List Char) :=
  let (negative, unsigned) := Numeral.takeSign text
  let (whole, afterWhole) :=
    match unsigned with
    | '0' :: rest => (['0'], rest)
    | rest => scanDigits Char.isDigit rest
  if whole.isEmpty then none
  else
    let (decimals, afterDecimals) :=
      match afterWhole with
      | '.' :: rest =>
        let (digits, left) := scanDigits Char.isDigit rest
        if digits.isEmpty then ([], afterWhole) else (digits, left)
      | rest => ([], rest)
    let power? : Option (Int × List Char) :=
      match afterDecimals with
      | e :: rest =>
        let (down, unsigned) := Numeral.takeSign rest
        let (digits, left) := scanDigits Char.isDigit unsigned
        let n : Int := Numeral.ofDigits digits
        if (e == 'e' || e == 'E') && !digits.isEmpty then some (if down then -n else n, left)
        else none
      | [] => none
    if decimals.isEmpty && power?.isNone then
      let n : Int := Numeral.ofDigits whole
      some (.int (if negative then -n else n), afterWhole)
    else
      let (power, rest) := power?.getD (0, afterDecimals)
      some (.double (Double.ofDecimal negative (Numeral.ofDigits (whole ++ decimals))
        (power - decimals.length)), rest)

/-- The doubles that have names. -/
def namedDoubles : List (List Char × Double) :=
  [("inf".toList, .infinity false), ("+inf".toList, .infinity false),
    ("-inf".toList, .infinity true), ("nan".toList, .nan 0), ("+nan".toList, .nan 0),
    ("-nan".toList, .nan 0)]

def scanNamed (text : List Char) : Option (Native × List Char) :=
  namedDoubles.findSome? (fun (name, value) =>
    if name.isPrefixOf text then some (.double value, text.drop name.length) else none)

/-- A number of a base that is a power of two, with the base in front. -/
def scanMarked : List Char → Option (Native × List Char)
  | '0' :: 'x' :: rest => scanBased 16 rest
  | '0' :: 'o' :: rest => scanBased 8 rest
  | '0' :: 'b' :: rest => scanBased 2 rest
  | _ => none

/-- A number; the digits of an integer are limited where they are decimal. -/
def scanNumber (text : List Char) : Except Fault (Native × List Char) :=
  match scanMarked text, scanDecimal text with
  | some found, _ => .ok found
  | none, some (.int value, rest) =>
    if Numeral.isOverlong value then .error (.overlongInteger (Numeral.digitCount value))
    else .ok (.int value, rest)
  | none, some found => .ok found
  | none, none => required (scanNamed text)

/-- What stands for a date or time, of which nothing is kept. -/
def moment : Native :=
  .object 0

/-- A truth value, a date or time, or a number. -/
def scanScalar (text : List Char) : Except Fault (Native × List Char) :=
  if "true".toList.isPrefixOf text then .ok (.bool true, text.drop 4)
  else if "false".toList.isPrefixOf text then .ok (.bool false, text.drop 5)
  else
    match Moment.moment? text with
    | some (true, rest) => .ok (moment, rest)
    | some (false, _) => .error .malformed
    | none => scanNumber text

def member? (key : String) (table : Table) : Option Native :=
  Native.lookup? (.text key) table

/-- Changes the table at a path, which is created where it is missing. The last table of an array
of tables stands for the array, if arrays may be entered. -/
def modifyAt (enterArrays : Bool) (change : Table → Option Table) :
    List String → Table → Option Table
  | [], table => change table
  | key :: path, table =>
    match member? key table with
    | none => do
      let inner ← modifyAt enterArrays change path []
      return Native.insert (.text key) (.map inner) table
    | some (.map inner) => do
      let inner ← modifyAt enterArrays change path inner
      return Native.insert (.text key) (.map inner) table
    | some (.list items) =>
      match enterArrays, items.getLast? with
      | true, some (.map inner) => do
        let inner ← modifyAt enterArrays change path inner
        return Native.insert (.text key) (.list (items.dropLast ++ [.map inner])) table
      | _, _ => none
    | some _ => none

def addMember (key : String) (value : Native) (table : Table) : Option Table :=
  if (member? key table).isSome then none else some (Native.insert (.text key) value table)

/-- What is known of the tables at a path: it is closed, or it was defined by a header. -/
structure Flag where
  path : List String
  closed : Bool
  deriving DecidableEq, Repr

def isClosed (flags : List Flag) (path : List String) : Bool :=
  flags.any (fun flag => flag.closed && flag.path.isPrefixOf path)

def isHeaded (flags : List Flag) (path : List String) : Bool :=
  flags.any (fun flag => !flag.closed && flag.path == path)

/-- Whether a value takes the place of a table or array, which is then closed. -/
def isCollection : Native → Bool
  | .map _ | .list _ => true
  | _ => false

/-- Blanks, line feeds and comments inside an array. -/
def skipInArray : (fuel : Nat) → List Char → Option (List Char)
  | 0, _ => none
  | fuel + 1, text => do
    match text.dropWhile (fun c => isBlank c || c == '\n') with
    | '#' :: rest => skipInArray fuel (← skipComment ('#' :: rest))
    | rest => return rest

mutual

def scanValue : (fuel : Nat) → List Char → Except Fault (Native × List Char)
  | 0, _ => .error .malformed
  | fuel + 1, text =>
    match text with
    | '"' :: _ | '\x27' :: _ =>
      (required (scanString text)).map (fun (cs, rest) => (.text (String.ofList cs), rest))
    | '[' :: rest => do
      match ← required (skipInArray text.length rest) with
      | ']' :: rest => return (.list [], rest)
      | rest =>
        let (items, rest) ← scanItems fuel rest
        return (.list items, rest)
    | '{' :: rest =>
      match skipBlanks rest with
      | '}' :: rest => .ok (.map [], rest)
      | rest => (scanMembers fuel [] [] rest).map (fun (table, rest) => (.map table, rest))
    | _ => scanScalar text

def scanItems : (fuel : Nat) → List Char → Except Fault (List Native × List Char)
  | 0, _ => .error .malformed
  | fuel + 1, text => do
    let (item, rest) ← scanValue fuel text
    match ← required (skipInArray text.length rest) with
    | ']' :: rest => return ([item], rest)
    | ',' :: rest =>
      match ← required (skipInArray text.length rest) with
      | ']' :: rest => return ([item], rest)
      | rest =>
        let (items, rest) ← scanItems fuel rest
        return (item :: items, rest)
    | _ => .error .malformed

def scanMembers : (fuel : Nat) → List Flag → Table → List Char → Except Fault (Table × List Char)
  | 0, _, _, _ => .error .malformed
  | fuel + 1, flags, table, text => do
    let ((path, value), rest) ← scanPair fuel text
    if isClosed flags path then .error .malformed
    else
      let table ←
        required (modifyAt false (addMember (path.getLastD "") value) path.dropLast table)
      match skipBlanks rest with
      | '}' :: rest => return (table, rest)
      | ',' :: rest =>
        let flags := if isCollection value then ⟨path, true⟩ :: flags else flags
        scanMembers fuel flags table (skipBlanks rest)
      | _ => .error .malformed

def scanPair : (fuel : Nat) → List Char → Except Fault ((List String × Native) × List Char)
  | 0, _ => .error .malformed
  | fuel + 1, text => do
    let (path, rest) ← required (scanKey text.length text)
    match rest with
    | '=' :: rest =>
      let (value, rest) ← scanValue fuel (skipBlanks rest)
      return ((path, value), rest)
    | _ => .error .malformed

end

structure Document where
  table : Table
  flags : List Flag
  /-- Tables that keys with points have opened since the last header. -/
  pending : List Flag
  header : List String

/-- The beginnings of a path that are neither empty nor the whole path. -/
def properStarts (path : List String) : List (List String) :=
  (List.range path.length).filterMap (fun n => if n = 0 then none else some (path.take n))

/-- Takes up a key and its value under the current header. -/
def Document.add (d : Document) (path : List String) (value : Native) : Option Document := do
  let opened := (properStarts path).map (d.header ++ ·)
  if opened.any (isHeaded d.flags) then none
  else
    let parent := d.header ++ path.dropLast
    if isClosed d.flags parent then none
    else
      let table ← modifyAt true (addMember (path.getLastD "") value) parent d.table
      let flags := if isCollection value then ⟨d.header ++ path, true⟩ :: d.flags else d.flags
      return { d with table, flags, pending := opened.map (⟨·, false⟩) ++ d.pending }

def Document.openTable (d : Document) (path : List String) : Option Document := do
  -- What keys with points have opened counts as defined from the next header on.
  let flags := d.pending ++ d.flags
  if isHeaded flags path || isClosed flags path then none
  else
    let table ← modifyAt true some path d.table
    return ⟨table, ⟨path, false⟩ :: flags, [], path⟩

def Document.appendTable (d : Document) (path : List String) : Option Document := do
  let flags := d.pending ++ d.flags
  if isClosed flags path then none
  else
    let key := path.getLastD ""
    let change (table : Table) : Option Table :=
      match member? key table with
      | none => some (Native.insert (.text key) (.list [.map []]) table)
      | some (.list items) => some (Native.insert (.text key) (.list (items ++ [.map []])) table)
      | some _ => none
    let table ← modifyAt true change path.dropLast d.table
    -- A new table of the array may define again what the one before it has defined.
    let kept := flags.filter (fun flag => !path.isPrefixOf flag.path)
    return ⟨table, ⟨path, false⟩ :: kept, [], path⟩

/-- One statement: a header, or a key and its value. -/
def scanStatement (d : Document) (text : List Char) : Except Fault (Document × List Char) :=
  match text with
  | '[' :: '[' :: rest => do
    let (path, rest) ← required (scanKey text.length (skipBlanks rest))
    match rest with
    | ']' :: ']' :: rest => return (← required (d.appendTable path), rest)
    | _ => .error .malformed
  | '[' :: rest => do
    let (path, rest) ← required (scanKey text.length (skipBlanks rest))
    match rest with
    | ']' :: rest => return (← required (d.openTable path), rest)
    | _ => .error .malformed
  | _ => do
    let ((path, value), rest) ← scanPair (2 * text.length + 2) text
    return (← required (d.add path value), rest)

/-- The lines of a file. The fuel bounds their number. -/
def scanLines : (fuel : Nat) → Document → List Char → Except Fault Document
  | 0, _, _ => .error .malformed
  | fuel + 1, d, text =>
    match skipBlanks text with
    | [] => .ok d
    | '\n' :: rest => scanLines fuel d rest
    | c :: rest => do
      let (d, rest) ← if c = '#' then .ok (d, c :: rest) else scanStatement d (c :: rest)
      match ← required (skipComment (skipBlanks rest)) with
      | [] => return d
      | '\n' :: rest => scanLines fuel d rest
      | _ => .error .malformed

/-- The text with line feeds in the place of carriage returns that line feeds follow. -/
def unixLines : List Char → List Char
  | '\r' :: '\n' :: rest => '\n' :: unixLines rest
  | c :: rest => c :: unixLines rest
  | [] => []

/-- The content of a file. -/
def read (text : String) : Except Fault Table :=
  let text := unixLines text.toList
  (scanLines (text.length + 1) ⟨[], [], [], []⟩ text).map Document.table

end TypedVariant.Toml
