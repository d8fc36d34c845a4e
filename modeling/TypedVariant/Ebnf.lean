import TypedVariant.Text.Character
import TypedVariant.Text.Quoted

/-! # Grammars in EBNF

A grammar is a text of rules, each a name at the start of a line, an equals sign,
an expression and a semicolon; comments stand between `(*` and `*)`. Reading a
grammar gives the alternatives of every rule, and the literals with which they
begin. The grammar of signatures is kept here as such a text.
-/

namespace TypedVariant.Ebnf

structure Production where
  name : String
  expression : String
  alternatives : List String
  /-- The first literal of each alternative that has one, without repetitions. -/
  leading : List String
  deriving DecidableEq, Repr

/-- The rules of a grammar, in the order in which their names first occur. -/
structure Grammar where
  productions : List Production
  deriving DecidableEq, Repr

inductive Error
  | unknownProduction (name : String)
  | outOfSync (rule : String) (missing unexpected : List String)
  deriving DecidableEq, Repr

/-- The text behind the end of a comment. -/
def behindComment? : List Char → Option (List Char)
  | '*' :: ')' :: rest => some rest
  | _ :: rest => behindComment? rest
  | [] => none

theorem behindComment?_length {text rest : List Char} (h : behindComment? text = some rest) :
    rest.length < text.length := by
  induction text with
  | nil => simp [behindComment?] at h
  | cons c tail ih =>
      unfold behindComment? at h
      split at h
      · next heq =>
          obtain ⟨-, rfl⟩ := List.cons.inj heq
          obtain rfl := Option.some.inj h
          simp only [List.length_cons]
          omega
      · next heq =>
          obtain ⟨-, rfl⟩ := List.cons.inj heq
          have := ih h
          simp only [List.length_cons]
          omega
      · simp at h

def stripComments : List Char → List Char
  | '(' :: '*' :: rest =>
    match h : behindComment? rest with
    | some left =>
      have := behindComment?_length h
      ' ' :: stripComments left
    | none => '(' :: stripComments ('*' :: rest)
  | c :: rest => c :: stripComments rest
  | [] => []
termination_by text => text.length

/-- What is known at a position of an expression: the alternatives that are complete, the current
one, how many brackets are open, and the quote of an open literal. -/
structure SplitState where
  complete : List (List Char)
  current : List Char
  depth : Nat
  quote : Option Char

/-- Ends the current alternative; one that is blank does not count. -/
def SplitState.finish (s : SplitState) : List (List Char) :=
  let part := Text.strip Text.isBlank s.current
  if part.isEmpty then s.complete else s.complete ++ [part]

def SplitState.step (s : SplitState) (c : Char) : SplitState :=
  let kept := { s with current := s.current ++ [c] }
  match s.quote with
  | some quote => if c = quote then { kept with quote := none } else kept
  | none =>
    if c = '"' ∨ c = '\x27' then { kept with quote := some c }
    else if c = '(' ∨ c = '[' ∨ c = '{' then { kept with depth := s.depth + 1 }
    else if c = ')' ∨ c = ']' ∨ c = '}' then { kept with depth := s.depth - 1 }
    else if c = '|' ∧ s.depth = 0 then { s with complete := s.finish, current := [] }
    else kept

/-- The alternatives of an expression: its parts between bars outside brackets and literals. -/
def splitAlternatives (expression : List Char) : List (List Char) :=
  (expression.foldl SplitState.step ⟨[], [], 0, none⟩).finish

def isQuote (c : Char) : Bool :=
  c == '"' || c == '\x27'

/-- The content of the first literal: one character or more between two quotes. -/
def firstLiteral? : List Char → Option (List Char)
  | [] => none
  | c :: rest =>
    let content := rest.takeWhile (!isQuote ·)
    if isQuote c && !content.isEmpty && content.length < rest.length then some content
    else firstLiteral? rest

def distinct (items : List String) : List String :=
  items.foldl (fun seen item => if seen.contains item then seen else seen ++ [item]) []

def isNameStart (c : Char) : Bool :=
  c.isAlpha || c == '_'

def isNameChar (c : Char) : Bool :=
  c.isAlphanum || c == '_'

/-- A rule at the front of a text, as name and expression, and what follows its semicolon. -/
def scanRule? (text : List Char) : Option ((List Char × List Char) × List Char) :=
  match text.dropWhile Text.isBlank with
  | [] => none
  | c :: rest =>
    if !isNameStart c then none
    else
      let name := c :: rest.takeWhile isNameChar
      match (rest.dropWhile isNameChar).dropWhile Text.isBlank with
      | '=' :: body =>
        let expression := body.takeWhile (· != ';')
        if expression.length < body.length then
          some ((name, Text.strip Text.isBlank expression), body.drop (expression.length + 1))
        else none
      | _ => none

def nextLine : List Char → List Char
  | [] => []
  | c :: rest => if c = '\n' then rest else nextLine rest

/-- The rules of a text without comments. A rule begins at the start of a line. The fuel bounds
the number of lines. -/
def rulesWithin : (fuel : Nat) → List Char → List (List Char × List Char)
  | 0, _ => []
  | fuel + 1, text =>
    if text.isEmpty then []
    else
      match scanRule? text with
      | some (rule, rest) => rule :: rulesWithin fuel (nextLine rest)
      | none => rulesWithin fuel (nextLine text)

/-- The production of a rule. -/
def production (name expression : List Char) : Production :=
  let alternatives := splitAlternatives expression
  { name := String.ofList name
    expression := String.ofList expression
    alternatives := alternatives.map String.ofList
    leading := distinct ((alternatives.filterMap firstLiteral?).map String.ofList) }

/-- Adds a production; one of a name that occurred before takes the place of the earlier. -/
def addProduction (productions : List Production) (p : Production) : List Production :=
  if productions.any (·.name == p.name) then
    productions.map (fun q => if q.name = p.name then p else q)
  else productions ++ [p]

namespace Grammar

def ofText (text : String) : Grammar :=
  let stripped := stripComments text.toList
  let rules := rulesWithin (stripped.length + 1) stripped
  ⟨rules.foldl (fun productions (name, expression) =>
    addProduction productions (production name expression)) []⟩

def find (g : Grammar) (name : String) : Except Error Production :=
  match g.productions.find? (·.name == name) with
  | some p => .ok p
  | none => .error (.unknownProduction name)

/-- The literals with which the alternatives of a production begin. -/
def terminals (g : Grammar) (name : String) : Except Error (List String) :=
  (g.find name).map Production.leading

/-- The distinct members of a list that another lacks, in order of their characters. -/
def lacking (items others : List String) : List String :=
  ((distinct items).filter (!others.contains ·)).mergeSort (fun a b => decide (a ≤ b))

/-- Checks that the alternatives of a production begin with the expected literals, in order. -/
def check (g : Grammar) (rule : String) (expected : List String) : Except Error Unit := do
  let actual ← g.terminals rule
  if actual = expected then return ()
  else throw (.outOfSync rule (lacking expected actual) (lacking actual expected))

end Grammar

def shownList (items : List String) : String :=
  "[" ++ String.intercalate ", " (items.map Text.shown) ++ "]"

def Error.message : Error → String
  | unknownProduction name => "Unknown grammar production: " ++ name
  | outOfSync rule missing unexpected =>
      let issues :=
        (if missing.isEmpty then [] else ["missing " ++ shownList missing]) ++
          (if unexpected.isEmpty then [] else ["unexpected " ++ shownList unexpected])
      "Grammar production " ++ Text.shown rule ++ " out of sync: " ++
        (if issues.isEmpty then "ordering differs" else String.intercalate "; " issues)

def signatureGrammarLines : List String :=
  ["(* Type signature grammar. Every terminal is a single character. *)",
    "(* A signature handed to pack() must hold exactly one complete_type. *)",
    "",
    "signature = \x7b complete_type \x7d ;",
    "",
    "complete_type = basic_type | variant_type | maybe_type | array_type | tuple_type | " ++
      "dict_entry_type ;",
    "",
    "basic_type = \"b\" | \"y\" | \"n\" | \"q\" | \"i\" | \"u\" | \"x\" | \"t\" | \"h\" | \"d\" | " ++
      "\"s\" | \"o\" | \"g\" ;",
    "",
    "variant_type = \"v\" ;",
    "",
    "maybe_type = \"m\" , complete_type ;",
    "",
    "array_type = \"a\" , complete_type ;",
    "",
    "tuple_type = \"(\" , \x7b complete_type \x7d , \")\" ;",
    "",
    "(* The key of a dictionary entry is forced to a basic type. *)",
    "dict_entry_type = \"\x7b\" , basic_type , complete_type , \"\x7d\" ;",
    "",
    "container_code = \"v\" | \"m\" | \"a\" | \"(\" | \"\x7b\" ;",
    "",
    "(* Accepted only in type patterns: any type, any basic type, any tuple. *)",
    "pattern_wildcard = \"*\" | \"?\" | \"r\" ;"]

def signatureGrammar : String :=
  String.join (signatureGrammarLines.map (· ++ "\n"))

end TypedVariant.Ebnf
