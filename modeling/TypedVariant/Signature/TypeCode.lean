import TypedVariant.Error

/-! # Type codes

A type code is a letter with which a definite type can begin. Each has a name,
under which codes are listed.
-/

namespace TypedVariant

/-- The letters with which types begin. -/
inductive TypeCode
  | basic (code : BasicCode)
  | variant | maybe | array | tuple | dictEntry
  deriving DecidableEq, Repr

namespace TypeCode

def letter : TypeCode → Char
  | basic code => code.letter
  | variant => 'v'
  | maybe => 'm'
  | array => 'a'
  | tuple => '('
  | dictEntry => '{'

def name : TypeCode → String
  | basic .boolean => "BOOLEAN"
  | basic (.integer .byte) => "BYTE"
  | basic (.integer .int16) => "INT16"
  | basic (.integer .uint16) => "UINT16"
  | basic (.integer .int32) => "INT32"
  | basic (.integer .uint32) => "UINT32"
  | basic (.integer .int64) => "INT64"
  | basic (.integer .uint64) => "UINT64"
  | basic (.integer .handle) => "HANDLE"
  | basic .double => "DOUBLE"
  | basic (.text .string) => "STRING"
  | basic (.text .objectPath) => "OBJECT_PATH"
  | basic (.text .signature) => "SIGNATURE"
  | variant => "VARIANT"
  | maybe => "MAYBE"
  | array => "ARRAY"
  | tuple => "TUPLE"
  | dictEntry => "DICT_ENTRY"

def isBasic : TypeCode → Bool
  | basic _ => true
  | variant | maybe | array | tuple | dictEntry => false

def containers : List TypeCode :=
  [variant, maybe, array, tuple, dictEntry]

def all : List TypeCode :=
  BasicCode.all.map basic ++ containers

/-- The type code that a native value names by its letter. -/
def ofNative? : Native → Option TypeCode
  | .text text => all.find? (fun code => String.singleton code.letter == text)
  | _ => none

/-- What is said of a value that names no type code. -/
def unknownMessage (x : Native) : Except Error String :=
  x.displayShown.map (· ++ " is not a valid TypeCode")

end TypeCode

end TypedVariant
