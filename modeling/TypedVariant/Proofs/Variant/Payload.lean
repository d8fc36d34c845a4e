import TypedVariant.Proofs.Signature.Sequences
import TypedVariant.Proofs.Variant.Built
import TypedVariant.Variant.Access

/-!
# The payload table

The type string of a variant says what is stored in it. The table lists, type by
type, which payloads are possible, and a variant is well-formed if its type
string spells exactly one type, without wildcards, and its payload stands in the
table for this type. It is told by the type string and the payload alone, from
outside as it were, and every variant that the constructors make follows it.
-/

namespace TypedVariant

mutual

/-- The payloads of a type. The children of a container are well-formed, and their type strings are
that of the element, or joined together those of the members. -/
inductive Stores : SigType → Native → Prop
  | boolean (value : Bool) : Stores (.basic .boolean) (.bool value)
  | integer {code : IntegerCode} {value : Int} (hlow : code.low ≤ value)
      (hhigh : value ≤ code.high) : Stores (.basic (.integer code)) (.int value)
  | double (value : Double) : Stores (.basic .double) (.double value)
  | string {value : String} (hnul : '\x00' ∉ value.toList) :
      Stores (.basic (.text .string)) (.text value)
  | objectPath {value : String} (hnul : '\x00' ∉ value.toList)
      (hpath : ObjectPath.isValid value = true) : Stores (.basic (.text .objectPath)) (.text value)
  | signature {value : String} {types : List SigType} (hnul : '\x00' ∉ value.toList)
      (hlength : value.length ≤ 255) (htypes : ∀ type ∈ types, type.WellFormed false)
      (htext : value.toList = SigType.lettersAll types) :
      Stores (.basic (.text .signature)) (.text value)
  | variant {content : Variant} (hcontent : content.IsWellFormed) :
      Stores .variant (.variant content)
  | absent (element : SigType) : Stores (.maybe element) .null
  | present {element : SigType} {child : Variant} (hchild : child.IsWellFormed)
      (htype : child.typeString = element.text) : Stores (.maybe element) (.variant child)
  | bytes (blob : List UInt8) : Stores (.array (.basic (.integer .byte))) (.bytes blob)
  | array {element : SigType} {children : List Variant}
      (hbyte : element ≠ .basic (.integer .byte))
      (hchildren : ∀ child ∈ children, child.IsWellFormed)
      (htypes : ∀ child ∈ children, child.typeString = element.text) :
      Stores (.array element) (.tuple (children.map .variant))
  | tuple {members : List SigType} {children : List Variant}
      (hchildren : ∀ child ∈ children, child.IsWellFormed)
      (htypes : children.flatMap Variant.typeLetters = SigType.lettersAll members) :
      Stores (.tuple members) (.tuple (children.map .variant))
  | dictEntry {keyType valueType : SigType} {key value : Variant} (hkey : key.IsWellFormed)
      (hvalue : value.IsWellFormed) (hbasic : key.isBasic = true)
      (htypes : key.typeLetters ++ value.typeLetters = keyType.letters ++ valueType.letters) :
      Stores (.dictEntry keyType valueType) (.tuple [.variant key, .variant value])

/-- The type string is the text of exactly one complete type, which is definite, and the payload is
one of this type. -/
inductive Variant.IsWellFormed : Variant → Prop
  | intro {v : Variant} {type : SigType}
      (hcomplete : IsCompleteType false type v.typeString.toList)
      (honly : ∀ other, IsCompleteType false other v.typeString.toList → other = type)
      (hdefinite : type.isDefinite = true) (hstores : Stores type v.payload) : v.IsWellFormed

end

/-- What the reader takes from any place of a text is parsed from a text of its own as well, so the
types given to constructors may come from there. -/
theorem TypeSource.isParsed_of_readOne {rules : Signature.Rules} {depth : Int} {simple : Bool}
    {text left : List Char} {type : SigType}
    (hread : Signature.readOne rules depth simple text = (.ok type, left)) :
    (TypeSource.type type).IsParsed := by
  obtain ⟨hadmits, -⟩ := Signature.readOne_eq_ok_iff.mp hread
  refine ⟨type.nesting, type.text, ?_⟩
  rw [Signature.parse_eq_ok_iff, Signature.parsePattern_eq_ok_iff, Signature.admits_zero_iff,
    Signature.admits_zero_iff, SigType.toList_text]
  have hwf := hadmits.wellFormed
  cases hwildcards : rules.wildcards with
  | false => exact .inl ⟨⟨hwildcards ▸ hwf, Int.le_refl _⟩, rfl⟩
  | true => exact .inr ⟨⟨hwildcards ▸ hwf, Int.le_refl _⟩, rfl⟩

/-- A text that its code accepts stands in the payload table. -/
theorem TextCode.Accepts.stores {code : TextCode} {value : String} (haccepts : code.Accepts value) :
    Stores (.basic (.text code)) (.text value) := by
  have hnul : '\x00' ∉ value.toList := by simpa using haccepts.1
  cases code with
  | string => exact .string hnul
  | objectPath =>
      have hcheck := haccepts.2
      rw [Variant.checkText] at hcheck
      split at hcheck
      next hpath => exact .objectPath hnul hpath
      next => cases hcheck
  | signature =>
      obtain ⟨-, hlength, types, hwithin, rfl⟩ := Signature.accepts_signature_iff.mp haccepts
      exact .signature hnul hlength (fun type htype => (hwithin type htype).1)
        (SigType.toList_sequenceText types)

namespace HasType

variable {v : Variant} {type : SigType}

/-- A typed variant is well-formed if its payload is one of its type: its type string is the text of
that type, and no text has two derivations. -/
theorem isWellFormed_of_stores (htyped : HasType v type) (hstores : Stores type v.payload) :
    v.IsWellFormed := by
  have htext : v.typeString.toList = type.letters := by rw [htyped.typeString, SigType.toList_text]
  have hwf := htyped.wellFormed
  refine .intro (SigType.isCompleteType_iff.mpr ⟨hwf, htext⟩) ?_ hwf.isDefinite hstores
  intro other hother
  obtain ⟨hother, hletters⟩ := SigType.isCompleteType_iff.mp hother
  exact SigType.letters_inj hother hwf (hletters.symm.trans htext)

/-- Every typed variant is well-formed. -/
theorem isWellFormed (htyped : HasType v type) : v.IsWellFormed := by
  apply htyped.isWellFormed_of_stores
  induction htyped with
  | boolean value => exact .boolean value
  | integer hholds => exact .integer hholds.1 hholds.2
  | double value => exact .double value
  | text haccepts => exact haccepts.stores
  | box hcontent ih => exact .variant (hcontent.isWellFormed_of_stores ih)
  | @nothing element _ => exact .absent element
  | just hcontent ih => exact .present (hcontent.isWellFormed_of_stores ih) hcontent.typeString
  | bytes blob => exact .bytes blob
  | array helement hbyte hitems ih =>
      apply Stores.array hbyte
      · exact fun item hitem => (hitems item hitem).isWellFormed_of_stores (ih item hitem)
      · exact fun item hitem => (hitems item hitem).typeString
  | tuple parts hparts ih =>
      apply Stores.tuple
      · intro child hchild
        obtain ⟨part, hpart, rfl⟩ := List.mem_map.mp hchild
        exact (hparts part hpart).isWellFormed_of_stores (ih part hpart)
      · rw [SigType.lettersAll_eq_flatMap, List.flatMap_map, List.flatMap_map]
        exact List.flatMap_congr (fun part hpart => (hparts part hpart).typeLetters)
  | entry hkey hvalue ihkey ihvalue =>
      refine .dictEntry (hkey.isWellFormed_of_stores ihkey) (hvalue.isWellFormed_of_stores ihvalue)
        hkey.isBasic ?_
      rw [hkey.typeLetters, hvalue.typeLetters]

end HasType

/-- Whatever calls of the constructors lead to follows the payload table. -/
theorem building_keeps_payload_table {v : Variant} (hbuilt : Built v) : v.IsWellFormed := by
  obtain ⟨type, htyped⟩ := hbuilt.isTyped
  exact htyped.isWellFormed

section

open scoped Standard

/-- A packed box beside an empty array whose element type is given as a type of its own. -/
theorem building_keeps_payload_table_tuple :
    ∃ v, v = Variant.tuple [.box (.boolean true), .array "i" []] ∧ Built v ∧ v.IsWellFormed := by
  have hcontent : Pack.Packs {} 1 (.basic .boolean) (.bool true) (.boolean true) := .basic rfl rfl
  have hpack : packText {} "v" (.bool true) = .ok (.box (.boolean true)) :=
    packText_eq_ok_iff.mpr ⟨.variant, rfl, .implied rfl (by decide) hcontent⟩
  have hbox : Built (.box (.boolean true)) :=
    @Built.packed _ {} (.text "v") (.bool true) _ (by simp [Native.variants]) hpack
  have hparse : Signature.parse 0 "i" = .ok (.basic (.integer .int32)) := by rfl
  have harray : Built (.array "i" []) := by
    refine @Built.array (some (.type (.basic (.integer .int32)))) (.list []) _ ?_
      (by simp [Native.variants, Native.variantsAll]) (by rfl)
    rintro _ ⟨⟩
    exact ⟨0, "i", .inl hparse⟩
  have hbuilt : Built (.tuple [.box (.boolean true), .array "i" []]) := by
    refine @Built.tuple (.list [.variant (.box (.boolean true)), .variant (.array "i" [])]) _ ?_
      (by rfl)
    simpa [Native.variants, Native.variantsAll] using ⟨hbox, harray⟩
  exact ⟨_, rfl, hbuilt, building_keeps_payload_table hbuilt⟩

end

end TypedVariant
