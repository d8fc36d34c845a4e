import TypedVariant.Text.Quoted

/-! # Text encodings

Nine encodings of text as bytes. The two-byte and four-byte encodings come in
both byte orders, and without a stated order they are little-endian and begin
with a byte-order mark. Two encodings cover an initial part of Unicode only and
refuse text outside it.

Which codecs there are besides is a matter of the installation: a name is looked
up among those that are installed, of which no more is known than that the nine
encodings are among them. Some codecs are not for text at all.
-/

namespace TypedVariant

inductive Encoding
  | ascii | latin1 | utf8
  | utf16 | utf16le | utf16be
  | utf32 | utf32le | utf32be
  deriving DecidableEq, Repr

namespace Encoding

/-- The words of a name in lower case: runs of ASCII letters, digits and points; every other
character only separates. -/
def nameWords (name : List Char) : List (List Char) :=
  let kept (c : Char) : Bool := c.isAlphanum || c == '.'
  let words := name.foldr (fun c words =>
    if kept c then
      match words with
      | word :: rest => (c.toLower :: word) :: rest
      | [] => [[c.toLower]]
    else [] :: words) [[]]
  words.filter (!·.isEmpty)

/-- The key under which an encoding's names are listed. -/
def nameKey (name : String) : String :=
  String.ofList (['_'].intercalate (nameWords name.toList))

def all : List Encoding :=
  [ascii, latin1, utf8, utf16, utf16le, utf16be, utf32, utf32le, utf32be]

def ownKey : Encoding → String
  | ascii => "ascii"
  | latin1 => "latin_1"
  | utf8 => "utf_8"
  | utf16 => "utf_16"
  | utf16le => "utf_16_le"
  | utf16be => "utf_16_be"
  | utf32 => "utf_32"
  | utf32le => "utf_32_le"
  | utf32be => "utf_32_be"

/-- The keys of an encoding's other names. -/
def otherKeys : Encoding → List String
  | ascii => ["646", "ansi_x3.4_1968", "ansi_x3_4_1968", "ansi_x3.4_1986", "cp367", "csascii",
      "ibm367", "iso646_us", "iso_646.irv_1991", "iso_ir_6", "us", "us_ascii"]
  | latin1 => ["8859", "cp819", "csisolatin1", "ibm819", "iso8859", "iso8859_1", "iso_8859_1",
      "iso_8859_1_1987", "iso_ir_100", "l1", "latin", "latin1"]
  | utf8 => ["u8", "utf", "utf8", "utf8_ucs2", "utf8_ucs4", "cp65001"]
  | utf16 => ["u16", "utf16"]
  | utf16le => ["unicodelittleunmarked", "utf_16le"]
  | utf16be => ["unicodebigunmarked", "utf_16be"]
  | utf32 => ["u32", "utf32"]
  | utf32le => ["utf_32le"]
  | utf32be => ["utf_32be"]

/-- Whether a key is one of an encoding's. In other names a point may stand for a separator. -/
def hasKey (key : String) (encoding : Encoding) : Bool :=
  let separated := String.ofList (key.toList.map (fun c => if c = '.' then '_' else c))
  encoding.ownKey == key || encoding.otherKeys.contains key ||
    encoding.otherKeys.contains separated

/-- The encoding that is listed under a key. -/
def ofKey? (key : String) : Option Encoding :=
  all.find? (hasKey key)

/-- The first run of characters that an encoding lacks. -/
structure Gap where
  /-- The name by which the encoding reports the gap. -/
  charset : String
  /-- How many characters the encoding covers. -/
  size : Nat
  position : Nat
  /-- The first character of the run. -/
  first : Char
  /-- How many characters the run has. -/
  length : Nat
  deriving DecidableEq, Repr

def Gap.message (gap : Gap) : String :=
  let subject :=
    if gap.length ≤ 1 then
      "character \x27" ++ String.ofList (Text.showCode gap.first.toNat) ++ "\x27 in position " ++
        toString gap.position
    else
      "characters in position " ++ toString gap.position ++ "-" ++
        toString (gap.position + gap.length - 1)
  "\x27" ++ gap.charset ++ "\x27 codec can\x27t encode " ++ subject ++
    ": ordinal not in range(" ++ toString gap.size ++ ")"

/-- One byte for each character below `size`. -/
def encodeNarrow (charset : String) (size : Nat) (text : List Char) : Except Gap (List UInt8) :=
  let covered (c : Char) : Bool := decide (c.toNat < size)
  match text.dropWhile covered with
  | [] => .ok (text.map (fun c => UInt8.ofNat c.toNat))
  | c :: rest =>
    .error
      { charset := charset
        size := size
        position := (text.takeWhile covered).length
        first := c
        length := ((c :: rest).takeWhile (!covered ·)).length }

/-- A character as one or two units of 16 bits. -/
def units16 (c : Char) : List Nat :=
  if c.toNat < 0x10000 then [c.toNat]
  else [0xD800 + (c.toNat - 0x10000) / 0x400, 0xDC00 + (c.toNat - 0x10000) % 0x400]

/-- The two bytes of a unit, the lower first. -/
def little16 (n : Nat) : List UInt8 :=
  [UInt8.ofNat (n % 0x100), UInt8.ofNat (n / 0x100)]

/-- The four bytes of a character, the lowest first. -/
def little32 (c : Char) : List UInt8 :=
  little16 (c.toNat % 0x10000) ++ little16 (c.toNat / 0x10000)

/-- The bytes of a text, or the first run of characters that the encoding lacks. -/
def encode (encoding : Encoding) (text : List Char) : Except Gap (List UInt8) :=
  match encoding with
  | ascii => encodeNarrow "ascii" 128 text
  | latin1 => encodeNarrow "latin-1" 256 text
  | utf8 => .ok (text.flatMap String.utf8EncodeChar)
  | utf16 => .ok ([0xFF, 0xFE] ++ (text.flatMap units16).flatMap little16)
  | utf16le => .ok ((text.flatMap units16).flatMap little16)
  | utf16be => .ok ((text.flatMap units16).flatMap (fun n => (little16 n).reverse))
  | utf32 => .ok ([0xFF, 0xFE, 0, 0] ++ text.flatMap little32)
  | utf32le => .ok (text.flatMap little32)
  | utf32be => .ok (text.flatMap (fun c => (little32 c).reverse))

end Encoding

/-- Why a codec gives no bytes for a text. -/
inductive Codec.Refusal
  /-- The text holds characters that the codec lacks. -/
  | unencodable (message : String)
  | failed (message : String)
  deriving DecidableEq, Repr

inductive Codec
  | text (encode : List Char → Except Codec.Refusal (List UInt8))
  /-- A codec that does not encode text. -/
  | other

def Encoding.codec (encoding : Encoding) : Codec :=
  .text (fun text => (encoding.encode text).mapError (fun gap => .unencodable gap.message))

/-- The installed codecs by the keys of their names. Each of the nine encodings is installed under
its own key. -/
class Codecs where
  codec? : (key : String) → Option Codec
  codec?_ownKey : ∀ encoding : Encoding, codec? encoding.ownKey = some encoding.codec

namespace Codecs

variable [Codecs]

/-- The codec that a name stands for. -/
def find? (name : String) : Option Codec :=
  codec? (Encoding.nameKey name)

theorem find?_of_nameKey {name : String} {encoding : Encoding}
    (hkey : Encoding.nameKey name = encoding.ownKey) : find? name = some encoding.codec := by
  rw [find?, hkey, codec?_ownKey]

end Codecs

namespace Standard

/-- The nine encodings and nothing else, under all their names. -/
scoped instance codecs : Codecs where
  codec? key := (Encoding.ofKey? key).map Encoding.codec
  codec?_ownKey encoding := by cases encoding <;> rfl

end Standard

end TypedVariant
