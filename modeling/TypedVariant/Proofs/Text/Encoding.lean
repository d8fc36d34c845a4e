import Mathlib.Data.List.Basic
import Mathlib.Data.List.TakeWhile
import Mathlib.Tactic.SplitIfs
import TypedVariant.Text.Encoding

/-!
# Encoded text

Bytes are decoded strictly: what no text is encoded as is refused as a whole. Each encoding
has a decoder of its own, and encoded text is decoded to itself. The encodings without a
stated byte order take it from a byte-order mark, and else are little-endian.

Text that ends in NUL is encoded with a zero byte at the end. The converse holds for the
encodings whose units are bytes. In the others a zero byte at the end may be part of the
last character, or of a mark in front of no text at all.
-/

namespace TypedVariant.Encoding

/-! ## Decoders -/

/-- Items taken two by two; there is no answer if one is left over. -/
def pairUp? {α β : Type} (join : α → α → β) : List α → Option (List β)
  | [] => some []
  | [_] => none
  | a :: b :: rest => (pairUp? join rest).map (join a b :: ·)

/-- The number of two bytes, the lower first. -/
def littleHalf (low high : UInt8) : Nat :=
  low.toNat + 0x100 * high.toNat

/-- The number of two bytes, the higher first. -/
def bigHalf (high low : UInt8) : Nat :=
  littleHalf low high

/-- The number of two halves, the lower first. -/
def littleWord (low high : Nat) : Nat :=
  low + 0x10000 * high

/-- The number of two halves, the higher first. -/
def bigWord (high low : Nat) : Nat :=
  littleWord low high

/-- The character of a number, if there is one. -/
def scalar? (n : Nat) : Option Char :=
  if n.isValidChar then some (Char.ofNat n) else none

/-- The characters of units of 16 bits. Units in the range of surrogates stand in pairs of a high
and a low one, which are told by their upper six bits. -/
def ofUnits16? : List Nat → Option (List Char)
  | [] => some []
  | unit :: rest =>
    if unit / 0x400 = 0x36 then
      match rest with
      | low :: rest =>
        if low / 0x400 = 0x37 then
          (ofUnits16? rest).map
            (Char.ofNat (0x10000 + (unit - 0xD800) * 0x400 + (low - 0xDC00)) :: ·)
        else none
      | [] => none
    else
      (scalar? unit).bind fun c => (ofUnits16? rest).map (c :: ·)

def decodeNarrow? (size : Nat) (data : List UInt8) : Option (List Char) :=
  data.mapM fun b => if b.toNat < size then some (Char.ofNat b.toNat) else none

def decode16? (half : UInt8 → UInt8 → Nat) (data : List UInt8) : Option (List Char) :=
  (pairUp? half data).bind ofUnits16?

def decode32? (half : UInt8 → UInt8 → Nat) (word : Nat → Nat → Nat) (data : List UInt8) :
    Option (List Char) :=
  (pairUp? half data).bind fun halves => (pairUp? word halves).bind (·.mapM scalar?)

/-- The text of bytes. -/
def decode? (encoding : Encoding) (data : List UInt8) : Option (List Char) :=
  match encoding with
  | ascii => decodeNarrow? 128 data
  | latin1 => decodeNarrow? 256 data
  | utf8 => data.toByteArray.utf8Decode?.map Array.toList
  | utf16le => decode16? littleHalf data
  | utf16be => decode16? bigHalf data
  | utf16 =>
    match data with
    | 0xFF :: 0xFE :: rest => decode16? littleHalf rest
    | 0xFE :: 0xFF :: rest => decode16? bigHalf rest
    | _ => decode16? littleHalf data
  | utf32le => decode32? littleHalf littleWord data
  | utf32be => decode32? bigHalf bigWord data
  | utf32 =>
    match data with
    | 0xFF :: 0xFE :: 0 :: 0 :: rest => decode32? littleHalf littleWord rest
    | 0 :: 0 :: 0xFE :: 0xFF :: rest => decode32? bigHalf bigWord rest
    | _ => decode32? littleHalf littleWord data

variable {text : List Char} {data : List UInt8}

/-! ## Narrow encodings -/

/-- Text that a narrow encoding covers is encoded with one byte for each character. -/
theorem encodeNarrow_eq_ok_iff {charset : String} {size : Nat} :
    encodeNarrow charset size text = .ok data ↔
      (∀ c ∈ text, c.toNat < size) ∧ data = text.map fun c => UInt8.ofNat c.toNat := by
  have hcovered : (text.dropWhile fun c => decide (c.toNat < size)) = [] ↔
      ∀ c ∈ text, c.toNat < size := by
    simp [List.dropWhile_eq_nil_iff]
  rw [← hcovered, encodeNarrow]
  dsimp only
  split
  next hdrop => simp [hdrop, eq_comm]
  next hdrop => simp [hdrop]

theorem decodeNarrow?_map {size : Nat} (hsize : size ≤ 256)
    (hcovered : ∀ c ∈ text, c.toNat < size) :
    decodeNarrow? size (text.map fun c => UInt8.ofNat c.toNat) = some text := by
  induction text with
  | nil => rfl
  | cons c rest ih =>
      obtain ⟨hc, hrest⟩ := List.forall_mem_cons.mp hcovered
      have hback : (UInt8.ofNat c.toNat).toNat = c.toNat := by
        rw [UInt8.toNat_ofNat']
        omega
      have ih := ih hrest
      rw [decodeNarrow?] at ih ⊢
      rw [List.map_cons, List.mapM_cons, hback, if_pos hc, ih, Char.ofNat_toNat]
      rfl

/-! ## Units of bytes -/

theorem pairUp?_flatMap {α β : Type} {join : α → α → β} {first second : β → α} {items : List β}
    (hjoin : ∀ item ∈ items, join (first item) (second item) = item) :
    pairUp? join (items.flatMap fun item => [first item, second item]) = some items := by
  induction items with
  | nil => rfl
  | cons item rest ih =>
      obtain ⟨hitem, hrest⟩ := List.forall_mem_cons.mp hjoin
      simp [pairUp?, hitem, ih hrest]

theorem toNat_valid (c : Char) : c.toNat < 0xD800 ∨ 0xDFFF < c.toNat ∧ c.toNat < 0x110000 :=
  c.valid

theorem scalar?_toNat (c : Char) : scalar? c.toNat = some c := by
  rw [scalar?, if_pos (show c.toNat.isValidChar from c.valid), Char.ofNat_toNat]

/-- A character is decoded from its one or two units, whatever follows. -/
theorem ofUnits16?_units16_append (c : Char) (rest : List Nat) :
    ofUnits16? (units16 c ++ rest) = (ofUnits16? rest).map (c :: ·) := by
  have hvalid := toNat_valid c
  unfold units16
  split_ifs with hplane
  -- No character lies among the surrogates, so a single unit is never taken for the first of two.
  · have hunit : ¬c.toNat / 0x400 = 0x36 := by omega
    rw [List.singleton_append, ofUnits16?.eq_def]
    dsimp only
    rw [if_neg hunit, scalar?_toNat, Option.bind_some]
  · have hhigh : (0xD800 + (c.toNat - 0x10000) / 0x400) / 0x400 = 0x36 := by omega
    have hlow : (0xDC00 + (c.toNat - 0x10000) % 0x400) / 0x400 = 0x37 := by omega
    have hback : 0x10000 + (0xD800 + (c.toNat - 0x10000) / 0x400 - 0xD800) * 0x400 +
        (0xDC00 + (c.toNat - 0x10000) % 0x400 - 0xDC00) = c.toNat := by
      omega
    rw [List.cons_append, List.singleton_append, ofUnits16?.eq_def]
    dsimp only
    rw [if_pos hhigh, if_pos hlow, hback, Char.ofNat_toNat]

theorem ofUnits16?_flatMap (text : List Char) : ofUnits16? (text.flatMap units16) = some text := by
  induction text with
  | nil => rfl
  | cons c rest ih => rw [List.flatMap_cons, ofUnits16?_units16_append, ih, Option.map_some]

/-- Units of 16 bits are read back from their bytes. -/
theorem pairUp?_little16 {units : List Nat} (hunits : ∀ unit ∈ units, unit < 0x10000) :
    pairUp? littleHalf (units.flatMap little16) = some units := by
  apply pairUp?_flatMap
  intro unit hunit
  have := hunits unit hunit
  simp only [littleHalf, UInt8.toNat_ofNat']
  omega

theorem pairUp?_big16 {units : List Nat} (hunits : ∀ unit ∈ units, unit < 0x10000) :
    pairUp? bigHalf (units.flatMap fun unit => (little16 unit).reverse) = some units := by
  apply pairUp?_flatMap
  intro unit hunit
  have := hunits unit hunit
  simp only [bigHalf, littleHalf, UInt8.toNat_ofNat']
  omega

theorem units16_lt (text : List Char) : ∀ unit ∈ text.flatMap units16, unit < 0x10000 := by
  intro unit hunit
  obtain ⟨c, -, hc⟩ := List.mem_flatMap.mp hunit
  have hvalid := toNat_valid c
  unfold units16 at hc
  split_ifs at hc
  · have hunit := List.mem_singleton.mp hc
    omega
  · have hunit := List.mem_pair.mp hc
    omega

/-! ## Words of bytes -/

theorem mapM_scalar? (text : List Char) : (text.map Char.toNat).mapM scalar? = some text := by
  induction text with
  | nil => rfl
  | cons c rest ih =>
      rw [List.map_cons, List.mapM_cons, scalar?_toNat, ih]
      rfl

/-- The lower half of a word and the higher one. -/
def halves (n : Nat) : List Nat :=
  [n % 0x10000, n / 0x10000]

theorem littleWord_halves (n : Nat) : littleWord (n % 0x10000) (n / 0x10000) = n := by
  rw [littleWord, Nat.mod_add_div]

theorem halves_lt (text : List Char) :
    ∀ half ∈ (text.map Char.toNat).flatMap halves, half < 0x10000 := by
  intro half hhalf
  obtain ⟨n, hn, hhalf⟩ := List.mem_flatMap.mp hhalf
  obtain ⟨c, -, rfl⟩ := List.mem_map.mp hn
  have hvalid := toNat_valid c
  rcases List.mem_pair.mp hhalf with rfl | rfl <;> omega

theorem decode32?_little (text : List Char) :
    decode32? littleHalf littleWord (text.flatMap little32) = some text := by
  have hbytes : text.flatMap little32 =
      ((text.map Char.toNat).flatMap halves).flatMap little16 := by
    rw [List.flatMap_map, List.flatMap_assoc]
    exact List.flatMap_congr fun c _ => by simp [little32, halves]
  have hwords : pairUp? littleWord ((text.map Char.toNat).flatMap halves) =
      some (text.map Char.toNat) :=
    pairUp?_flatMap fun n _ => littleWord_halves n
  rw [decode32?, hbytes, pairUp?_little16 (halves_lt text), Option.bind_some, hwords,
    Option.bind_some, mapM_scalar?]

theorem decode32?_big (text : List Char) :
    decode32? bigHalf bigWord (text.flatMap fun c => (little32 c).reverse) = some text := by
  have hbytes : (text.flatMap fun c => (little32 c).reverse) =
      ((text.map Char.toNat).flatMap fun n => (halves n).reverse).flatMap
        fun half => (little16 half).reverse := by
    rw [List.flatMap_map, List.flatMap_assoc]
    exact List.flatMap_congr fun c _ => by simp [little32, halves]
  have hwords : pairUp? bigWord ((text.map Char.toNat).flatMap fun n => (halves n).reverse) =
      some (text.map Char.toNat) :=
    pairUp?_flatMap fun n _ => littleWord_halves n
  have hlt : ∀ half ∈ (text.map Char.toNat).flatMap fun n => (halves n).reverse,
      half < 0x10000 := by
    intro half hhalf
    apply halves_lt text half
    simpa using hhalf
  rw [decode32?, hbytes, pairUp?_big16 hlt, Option.bind_some, hwords, Option.bind_some, mapM_scalar?]

/-! ## All encodings -/

theorem decode?_utf8 (text : List Char) :
    utf8.decode? (text.flatMap String.utf8EncodeChar) = some text := by
  have hbytes : (text.flatMap String.utf8EncodeChar).toByteArray = text.utf8Encode := rfl
  rw [decode?, hbytes, List.utf8Decode?_utf8Encode]
  rfl

/-- Text that can be encoded is decoded to itself. -/
theorem decode?_of_encode {encoding : Encoding} (hdata : encoding.encode text = .ok data) :
    encoding.decode? data = some text := by
  have hlittle : decode16? littleHalf ((text.flatMap units16).flatMap little16) = some text := by
    rw [decode16?, pairUp?_little16 (units16_lt text), Option.bind_some, ofUnits16?_flatMap]
  have hbig : decode16? bigHalf ((text.flatMap units16).flatMap fun n => (little16 n).reverse) =
      some text := by
    rw [decode16?, pairUp?_big16 (units16_lt text), Option.bind_some, ofUnits16?_flatMap]
  cases encoding with
  | ascii | latin1 =>
      obtain ⟨hcovered, rfl⟩ := encodeNarrow_eq_ok_iff.mp hdata
      exact decodeNarrow?_map (by decide) hcovered
  | utf8 =>
      obtain rfl := Except.ok.inj hdata
      exact decode?_utf8 text
  | utf16 | utf16le =>
      obtain rfl := Except.ok.inj hdata
      exact hlittle
  | utf16be =>
      obtain rfl := Except.ok.inj hdata
      exact hbig
  | utf32 | utf32le =>
      obtain rfl := Except.ok.inj hdata
      exact decode32?_little text
  | utf32be =>
      obtain rfl := Except.ok.inj hdata
      exact decode32?_big text

/-! ## The last byte -/

/-- The mark in front of an encoded text. -/
def mark : Encoding → List UInt8
  | utf16 => [0xFF, 0xFE]
  | utf32 => [0xFF, 0xFE, 0, 0]
  | ascii | latin1 | utf8 | utf16le | utf16be | utf32le | utf32be => []

/-- The bytes of a character. -/
def charBytes : Encoding → Char → List UInt8
  | ascii, c | latin1, c => [UInt8.ofNat c.toNat]
  | utf8, c => String.utf8EncodeChar c
  | utf16, c | utf16le, c => (units16 c).flatMap little16
  | utf16be, c => (units16 c).flatMap fun n => (little16 n).reverse
  | utf32, c | utf32le, c => little32 c
  | utf32be, c => (little32 c).reverse

/-- The characters that an encoding covers. -/
def Covers : Encoding → Char → Prop
  | ascii, c => c.toNat < 128
  | latin1, c => c.toNat < 256
  | _, _ => True

theorem encode_eq_ok_iff {encoding : Encoding} :
    encoding.encode text = .ok data ↔
      (∀ c ∈ text, encoding.Covers c) ∧ data = encoding.mark ++ text.flatMap encoding.charBytes := by
  cases encoding with
  | ascii | latin1 =>
      refine encodeNarrow_eq_ok_iff.trans ?_
      rw [List.map_eq_flatMap]
      rfl
  | utf8 | utf32 | utf32le | utf32be =>
      exact ⟨fun hdata => ⟨fun _ _ => trivial, (Except.ok.inj hdata).symm⟩,
        fun hdata => congrArg Except.ok hdata.2.symm⟩
  | utf16 | utf16le | utf16be =>
      rw [encode, List.flatMap_assoc]
      exact ⟨fun hdata => ⟨fun _ _ => trivial, (Except.ok.inj hdata).symm⟩,
        fun hdata => congrArg Except.ok hdata.2.symm⟩

/-- Whether the bytes of a character end in a zero although it is not NUL. -/
def endsInZero : Encoding → Char → Bool
  | ascii, _ | latin1, _ | utf8, _ => false
  | utf16, c | utf16le, c => c.toNat < 0x100
  | utf16be, c | utf32be, c => c.toNat % 0x100 = 0
  | utf32, _ | utf32le, _ => true

theorem exists_getLast?_of_ofNat {n : Nat} {zero : Prop}
    (hlast : data.getLast? = some (UInt8.ofNat n))
    (hzero : n % 0x100 = 0 ↔ zero) : ∃ b, data.getLast? = some b ∧ (b = 0 ↔ zero) := by
  refine ⟨_, hlast, ?_⟩
  rw [← hzero, ← UInt8.toNat_inj, UInt8.toNat_ofNat']
  rfl

/-- The last byte of a character is zero for NUL, and for no other character unless the encoding
has it so. -/
theorem exists_getLast?_charBytes {encoding : Encoding} {c : Char} (hc : encoding.Covers c) :
    ∃ b, (encoding.charBytes c).getLast? = some b ∧
      (b = 0 ↔ c = '\x00' ∨ encoding.endsInZero c = true) := by
  have hvalid := toNat_valid c
  have hnul : c = '\x00' ↔ c.toNat = 0 := Char.toNat_inj.symm
  rw [hnul]
  cases encoding with
  | ascii | latin1 =>
      simp only [Covers] at hc
      refine exists_getLast?_of_ofNat rfl ?_
      simp only [endsInZero, Bool.false_eq_true, or_false]
      omega
  | utf8 =>
      simp only [charBytes, endsInZero, String.utf8EncodeChar, Char.toNat_val, Bool.false_eq_true,
        or_false]
      split_ifs <;> refine exists_getLast?_of_ofNat rfl ?_ <;> omega
  | utf16 | utf16le | utf16be =>
      simp only [charBytes, endsInZero, units16, decide_eq_true_eq]
      split_ifs <;> refine exists_getLast?_of_ofNat rfl ?_ <;> omega
  | utf32 | utf32le =>
      refine exists_getLast?_of_ofNat rfl ?_
      simp only [endsInZero, or_true, iff_true]
      omega
  | utf32be =>
      refine exists_getLast?_of_ofNat rfl ?_
      simp only [endsInZero, decide_eq_true_eq]
      omega

/-- Whether the bytes of a text that does not end in NUL end in a zero: they do because of its last
character, or of the mark if there is none. -/
def hidesTerminator (encoding : Encoding) (text : List Char) : Bool :=
  match text.getLast? with
  | some c => encoding.endsInZero c
  | none => encoding = utf32

theorem getLast?_encode_eq_zero_iff {encoding : Encoding}
    (hdata : encoding.encode text = .ok data) :
    data.getLast? = some 0 ↔
      text.getLast? = some '\x00' ∨ encoding.hidesTerminator text = true := by
  obtain ⟨hcovered, rfl⟩ := encode_eq_ok_iff.mp hdata
  rcases List.eq_nil_or_concat' text with rfl | ⟨init, c, rfl⟩
  · cases encoding <;> decide
  · obtain ⟨b, hlast, hzero⟩ := exists_getLast?_charBytes (hcovered c (by simp))
    simp [hidesTerminator, hlast, hzero]

end TypedVariant.Encoding
