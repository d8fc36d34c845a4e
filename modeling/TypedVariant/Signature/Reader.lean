import TypedVariant.Signature.Type

/-! # Reading one type from text

The reader goes through the text once, from left to right, and keeps the
containers whose text has begun. A completed type is handed to the innermost
open container, which either completes as well or asks for more. Every answer
comes with the text that is left, so that a caller knows where reading stopped,
also after a refusal: the refused character itself may be consumed, nothing
behind it is.
-/

namespace TypedVariant

/-- The nesting allowed unless settings say otherwise. -/
def defaultMaxDepth : Int := 128

/-- The deepest nesting that settings may allow. -/
def maxDepthLimit : Int := 4096

namespace Signature

/-- Why the text at a position is not the beginning of a type. -/
inductive Fault
  | unexpectedEnd
  | simpleExpected (found : Char)
  | elementMissing (container : Char)
  | keyMissing
  | valueMissing
  | entryUnclosed
  | tupleUnclosed
  | notAType (found : Char)
  deriving DecidableEq, Repr

/-- A refusal: the text is malformed, or it nests deeper than the limit. -/
inductive Refusal
  | fault (fault : Fault)
  | tooDeep
  deriving DecidableEq, Repr

/-- What a reading ends with: a value or a refusal, and the text that is left. -/
abbrev Outcome (α : Type) := Except Refusal α × List Char

/-- What a reading accepts. -/
structure Rules where
  wildcards : Bool
  maxDepth : Int

/-- A container whose text has begun and is not complete. -/
inductive Open
  | maybe
  | array
  /-- A tuple with the members read so far, the latest first. -/
  | tuple (earlier : List SigType)
  /-- A dictionary entry that lacks its key. -/
  | key
  /-- A dictionary entry that lacks its value. -/
  | value (key : SigType)

/-- What the reader expects next, inside the open containers, innermost first. -/
inductive Awaiting
  | type (within : List Open)
  | close (key value : SigType) (within : List Open)

/-- What a letter leads to: the outermost type is complete, more text is awaited, or the letter is
refused. A letter refused for itself is consumed; one that stands in the place of a bracket, or
lies too deep, is not. -/
inductive Step
  | done (type : SigType)
  | more (next : Awaiting)
  | refuseLetter (fault : Fault)
  | refuseBefore (refusal : Refusal)

/-- Hands a completed type to the innermost open container. -/
def plug (type : SigType) : List Open → Step
  | [] => .done type
  | .maybe :: outer => plug (.maybe type) outer
  | .array :: outer => plug (.array type) outer
  | .tuple earlier :: outer => .more (.type (.tuple (type :: earlier) :: outer))
  | .key :: outer => .more (.type (.value type :: outer))
  | .value key :: outer => .more (.close key type outer)

/-- The fault of a text that ends where a type is expected. -/
def Fault.ofEnd : List Open → Fault
  | [] => .unexpectedEnd
  | .maybe :: _ => .elementMissing 'm'
  | .array :: _ => .elementMissing 'a'
  | .tuple _ :: _ => .tupleUnclosed
  | .key :: _ => .keyMissing
  | .value _ :: _ => .valueMissing

/-- The type that a single letter stands for. -/
def leaf? (wildcards : Bool) (c : Char) : Option SigType :=
  match BasicCode.ofLetter? c with
  | some code => some (.basic code)
  | none =>
    if c = 'v' then some .variant
    else if wildcards && c == '?' then some (.wildcard .anyBasic)
    else if wildcards && c == '*' then some (.wildcard .anyType)
    else if wildcards && c == 'r' then some (.wildcard .anyTuple)
    else none

/-- The container that a letter or bracket begins. -/
def opening? : Char → Option Open
  | 'm' => some .maybe
  | 'a' => some .array
  | '(' => some (.tuple [])
  | '{' => some .key
  | _ => none

/-- Whether only a basic type may stand next: at the start if the caller says so, and where a
dictionary entry lacks its key. -/
def simpleOnly (simple : Bool) : List Open → Bool
  | [] => simple
  | .key :: _ => true
  | _ => false

/-- What a letter leads to where a type may begin inside the given containers. The depth is that
of the outermost type; each open container adds one level. -/
def stepType (rules : Rules) (depth : Int) (simple : Bool) (within : List Open) (c : Char) : Step :=
  -- The depth comes before the letter: what lies too deep is refused whatever it is.
  if rules.maxDepth < depth + within.length then .refuseBefore .tooDeep
  else
    match leaf? rules.wildcards c with
    | some type =>
      if simpleOnly simple within && !type.isBasic then .refuseLetter (.simpleExpected c)
      else plug type within
    | none =>
      if simpleOnly simple within then .refuseLetter (.simpleExpected c)
      else
        match opening? c with
        | some container => .more (.type (container :: within))
        | none => .refuseLetter (.notAType c)

/-- What a letter leads to. A tuple may end wherever its next member may begin. -/
def step (rules : Rules) (depth : Int) (simple : Bool) (awaiting : Awaiting) (c : Char) : Step :=
  match awaiting with
  | .close key value outer =>
    if c = '}' then plug (.dictEntry key value) outer
    else .refuseBefore (.fault .entryUnclosed)
  | .type (.tuple earlier :: outer) =>
    if c = ')' then plug (.tuple earlier.reverse) outer
    else stepType rules depth simple (.tuple earlier :: outer) c
  | .type within => stepType rules depth simple within c

def refusalAtEnd (rules : Rules) (depth : Int) : Awaiting → Refusal
  | .close _ _ _ => .fault .entryUnclosed
  | .type [] => if rules.maxDepth < depth then .tooDeep else .fault .unexpectedEnd
  | .type within => .fault (.ofEnd within)

/-- Reads on, with the given containers open, up to the end of the outermost type. -/
def readWithin (rules : Rules) (depth : Int) (simple : Bool) :
    Awaiting → List Char → Outcome SigType
  | awaiting, [] => (.error (refusalAtEnd rules depth awaiting), [])
  | awaiting, c :: rest =>
    match step rules depth simple awaiting c with
    | .done type => (.ok type, rest)
    | .more next => readWithin rules depth simple next rest
    | .refuseLetter fault => (.error (.fault fault), rest)
    | .refuseBefore refusal => (.error refusal, c :: rest)

/-- Reads exactly one complete type from the front of the text. -/
def readOne (rules : Rules) (depth : Int) (simple : Bool) (text : List Char) : Outcome SigType :=
  readWithin rules depth simple (.type []) text

/-- Reading never gives back more than it was given, and a type takes at least one letter. -/
theorem readWithin_length {rules : Rules} {depth : Int} {simple : Bool} (awaiting : Awaiting)
    (text : List Char) :
    (readWithin rules depth simple awaiting text).2.length ≤ text.length ∧
      ∀ type, (readWithin rules depth simple awaiting text).1 = .ok type →
        (readWithin rules depth simple awaiting text).2.length < text.length := by
  induction text generalizing awaiting with
  | nil => simp [readWithin]
  | cons c rest ih =>
      unfold readWithin
      cases step rules depth simple awaiting c with
      | done type => simp
      | more next =>
          have h := (ih next).1
          simp only [List.length_cons]
          exact ⟨by omega, fun _ _ => by omega⟩
      | refuseLetter fault => simp
      | refuseBefore refusal => simp

/-- A type read from a text leaves less than the whole text. -/
theorem readOne_length_lt {rules : Rules} {depth : Int} {simple : Bool} {text : List Char}
    {type : SigType} (h : (readOne rules depth simple text).1 = .ok type) :
    (readOne rules depth simple text).2.length < text.length :=
  (readWithin_length _ _).2 _ h

/-- Reads complete types up to the end of the text. -/
def readAll (rules : Rules) (depth : Int) (text : List Char) : Except Refusal (List SigType) :=
  if text.isEmpty then .ok []
  else
    match h : (readOne rules depth false text).1 with
    | .error refusal => .error refusal
    | .ok type =>
      have := readOne_length_lt h
      (readAll rules depth (readOne rules depth false text).2).map (type :: ·)
termination_by text.length

end Signature

end TypedVariant
