import TypedVariant.Proofs.Native.Parts
import TypedVariant.Proofs.Pack.Derivation

/-!
# Typed variants

A variant has a type if its payload follows the type: integers lie in their
range, text is accepted by its code, and the parts of containers have the types
of the parts. The type string of such a variant is the text of its type, so it
has no other type. Basic constructors, arrays of typed elements and packing all
make typed variants.
-/

namespace TypedVariant

/-- The payload of a variant follows a type. Every element of an array has exactly the element
type, and an array of bytes is a blob. -/
inductive HasType : Variant → SigType → Prop
  | boolean (value : Bool) : HasType (.boolean value) (.basic .boolean)
  | integer {code : IntegerCode} {value : Int} (hholds : code.Holds value) :
      HasType (.integer code value) (.basic (.integer code))
  | double (value : Double) : HasType (.double value) (.basic .double)
  | text {code : TextCode} {value : String} (haccepts : code.Accepts value) :
      HasType (.text code value) (.basic (.text code))
  | box {content : Variant} {type : SigType} (hcontent : HasType content type) :
      HasType (.box content) .variant
  | nothing {element : SigType} (helement : element.WellFormed false) :
      HasType (.nothing element.text) (.maybe element)
  | just {content : Variant} {element : SigType} (hcontent : HasType content element) :
      HasType (.just content) (.maybe element)
  | bytes (blob : List UInt8) : HasType (.bytes blob) (.array (.basic (.integer .byte)))
  | array {element : SigType} {items : List Variant} (helement : element.WellFormed false)
      (hbyte : element ≠ .basic (.integer .byte)) (hitems : ∀ item ∈ items, HasType item element) :
      HasType (.array element.text items) (.array element)
  | tuple (parts : List (Variant × SigType)) (hparts : ∀ part ∈ parts, HasType part.1 part.2) :
      HasType (.tuple (parts.map Prod.fst)) (.tuple (parts.map Prod.snd))
  | entry {key value : Variant} {code : BasicCode} {type : SigType}
      (hkey : HasType key (.basic code)) (hvalue : HasType value type) :
      HasType (.entry key value) (.dictEntry (.basic code) type)

namespace HasType

variable {v : Variant} {type other element : SigType}

theorem wellFormed (htyped : HasType v type) : type.WellFormed false := by
  induction htyped with
  | boolean | integer | double | text => exact .basic _
  | box => exact .variant
  | nothing helement => exact .maybe helement
  | just _ ih => exact .maybe ih
  | bytes blob => exact .array (.basic _)
  | array helement => exact .array helement
  | tuple parts _ ih =>
      apply SigType.WellFormed.tuple
      intro member hmember
      obtain ⟨part, hpart, rfl⟩ := List.mem_map.mp hmember
      exact ih part hpart
  | entry _ _ _ ihvalue => exact .dictEntry rfl (.basic _) ihvalue

/-- A typed variant writes the text of its type. -/
theorem typeLetters (htyped : HasType v type) : v.typeLetters = type.letters := by
  induction htyped with
  | boolean | integer | double | text | box | bytes => rfl
  | nothing | array => simp [Variant.typeLetters, SigType.letters]
  | just _ ih => rw [Variant.typeLetters, ih, SigType.letters]
  | tuple parts _ ih => exact Variant.typeLetters_tuple ih
  | entry _ _ ihkey ihvalue =>
      rw [Variant.typeLetters, ihkey, ihvalue]
      rfl

theorem typeString (htyped : HasType v type) : v.typeString = type.text := by
  rw [Variant.typeString, htyped.typeLetters, SigType.text]

/-- A variant with the type string of a type has no other type than this one. -/
theorem eq_of_typeString (htyped : HasType v type) (hwf : other.WellFormed false)
    (htext : v.typeString = other.text) : type = other :=
  SigType.text_inj htyped.wellFormed hwf (htyped.typeString.symm.trans htext)

theorem unique (htyped : HasType v type) (hother : HasType v other) : type = other :=
  htyped.eq_of_typeString hother.wellFormed hother.typeString

theorem isBasic {code : BasicCode} (htyped : HasType v (.basic code)) : v.isBasic = true := by
  simp [Variant.isBasic, htyped.typeLetters, SigType.letters, BasicCode.ofLetter?_letter]

/-- The basic ones among typed variants are those of basic types. -/
theorem exists_code_of_isBasic (htyped : HasType v type) (hbasic : v.isBasic = true) :
    ∃ code, type = .basic code := by
  unfold Variant.isBasic at hbasic
  split at hbasic
  next c hletters =>
    obtain ⟨code, hcode⟩ := Option.isSome_iff_exists.mp hbasic
    refine ⟨code, SigType.letters_inj htyped.wellFormed (.basic code) ?_⟩
    rw [← htyped.typeLetters, hletters, SigType.letters, BasicCode.letter_of_ofLetter? hcode]
  next => simp at hbasic

end HasType

theorem hasType_ofBasic {code : BasicCode} {x : Native} {v : Variant}
    (hbuilt : Variant.ofBasic code x = .ok v) : HasType v (.basic code) := by
  cases code with
  | boolean =>
      obtain rfl := Except.ok.inj hbuilt
      exact .boolean _
  | integer code =>
      obtain ⟨value, hvalue, rfl⟩ := map_eq_ok_iff.mp hbuilt
      exact .integer (Variant.holds_of_asInteger hvalue)
  | double =>
      obtain ⟨value, -, rfl⟩ := map_eq_ok_iff.mp hbuilt
      exact .double value
  | text code =>
      obtain ⟨value, -, haccepts, rfl⟩ := Variant.ofText_eq_ok_iff.mp hbuilt
      exact .text haccepts

theorem hasType_ofByte (b : UInt8) : HasType (.ofByte b) (.basic (.integer .byte)) := by
  apply HasType.integer
  have hb := b.toNat_lt
  constructor
  · exact Int.natCast_nonneg _
  · simp only [IntegerCode.high]
    omega

theorem hasType_ofStrings {strings : List Native} {v : Variant}
    (hbuilt : Variant.ofStrings strings = .ok v) :
    HasType v (.array (.basic (.text .string))) := by
  obtain ⟨values, -, hvalues, rfl⟩ := Variant.ofStrings_eq_ok_iff.mp hbuilt
  have helement : (SigType.basic (.text .string)).text = "s" := by rfl
  rw [← helement]
  apply HasType.array (.basic _) (by simp)
  intro item hitem
  obtain ⟨value, hvalue, rfl⟩ := List.mem_map.mp hitem
  exact .text (hvalues value hvalue)

/-! ## Values that hold typed variants -/

namespace Native

mutual

/-- The variants in a native value, however deep in collections. -/
def variants : Native → List Variant
  | list items | tuple items | set items | stream items _ => variantsAll items
  | map entries => variantsOfEntries entries
  | variant v | dictionary v _ => [v]
  | null | bool _ | int _ | double _ | text _ | blob _ _ | range _ _ _ | object _ | sigType _
  | foreign _ => []
termination_by structural x => x

/-- The variants in several values. -/
def variantsAll : List Native → List Variant
  | [] => []
  | x :: rest => x.variants ++ variantsAll rest
termination_by structural xs => xs

/-- The variants in the keys and values of a map. -/
def variantsOfEntries : List (Native × Native) → List Variant
  | [] => []
  | (key, value) :: rest => key.variants ++ value.variants ++ variantsOfEntries rest
termination_by structural entries => entries

end

theorem mem_variantsAll {items : List Native} {v : Variant} :
    v ∈ variantsAll items ↔ ∃ item ∈ items, v ∈ item.variants := by
  induction items with
  | nil => simp [variantsAll]
  | cons item rest ih => simp [variantsAll, ih]

theorem mem_variantsOfEntries {entries : List (Native × Native)} {v : Variant} :
    v ∈ variantsOfEntries entries ↔
      ∃ entry ∈ entries, v ∈ entry.1.variants ∨ v ∈ entry.2.variants := by
  induction entries with
  | nil => simp [variantsOfEntries]
  | cons entry rest ih =>
      obtain ⟨key, value⟩ := entry
      simp [variantsOfEntries, ih, or_assoc]

end Native

/-- A variant that has some type. -/
def Variant.IsTyped (v : Variant) : Prop :=
  ∃ type, HasType v type

namespace Native

/-- A value in which all variants are typed. -/
def IsTyped (x : Native) : Prop :=
  ∀ v ∈ x.variants, v.IsTyped

theorem isTyped_variant_iff {v : Variant} : (variant v).IsTyped ↔ v.IsTyped := by
  simp [IsTyped, variants]

theorem isTyped_of_variants_eq_nil {x : Native} (hnone : x.variants = []) : x.IsTyped := by
  simp [IsTyped, hnone]

theorem isTyped_of_variantsAll {items : List Native} (hitems : ∀ v ∈ variantsAll items, v.IsTyped) :
    ∀ item ∈ items, item.IsTyped :=
  fun item hitem v hv => hitems v (mem_variantsAll.mpr ⟨item, hitem, hv⟩)

/-- The parts of a value hold no variants but those of the value. -/
theorem handedDown_isTyped : HandedDown IsTyped where
  list := isTyped_of_variantsAll
  tuple := isTyped_of_variantsAll
  set := isTyped_of_variantsAll
  stream := isTyped_of_variantsAll
  map hentries entry hentry :=
    ⟨fun v hv => hentries v (mem_variantsOfEntries.mpr ⟨entry, hentry, .inl hv⟩),
      fun v hv => hentries v (mem_variantsOfEntries.mpr ⟨entry, hentry, .inr hv⟩)⟩
  int _ := isTyped_of_variants_eq_nil rfl
  text _ := isTyped_of_variants_eq_nil rfl
  pair hkey hvalue v hv := by
    simp only [variants, variantsAll, List.append_nil, List.mem_append] at hv
    exact hv.elim (hkey v) (hvalue v)

end Native

/-- The elements of an array that have its type string have its element type; if they are bytes,
the array is a blob. -/
theorem hasType_arrayOf {element : SigType} {items : List Variant} {v : Variant}
    (helement : element.WellFormed false) (hitems : ∀ item ∈ items, item.IsTyped)
    (hbuilt : Variant.arrayOf element.text items = .ok v) : HasType v (.array element) := by
  unfold Variant.arrayOf at hbuilt
  split at hbuilt
  next => simp at hbuilt
  next hfound =>
    -- Only type strings have been compared, but a text is spelled by one type alone.
    have hall : ∀ item ∈ items, HasType item element := by
      intro item hitem
      obtain ⟨type, htype⟩ := hitems item hitem
      have htext : item.typeString = element.text := by
        simpa using List.find?_eq_none.mp hfound item hitem
      rwa [← htype.eq_of_typeString helement htext]
    split at hbuilt
    next hbyte =>
      obtain rfl := Except.ok.inj hbuilt
      obtain rfl : element = .basic (.integer .byte) := SigType.text_inj helement (.basic _) hbyte
      exact .bytes _
    next hbyte =>
      obtain rfl := Except.ok.inj hbuilt
      refine .array helement ?_ hall
      rintro rfl
      exact hbyte rfl

/-- What is packed as a whole is an array of basic values. -/
theorem Pack.hasType_of_packFlat? [Codecs] {settings : Settings} {element : SigType} {x : Native}
    {v : Variant} (hflat : packFlat? settings element x = some (.ok v)) :
    ∃ code, element = .basic code ∧ HasType v (.array (.basic code)) := by
  unfold packFlat? at hflat
  split at hflat
  next =>
    have hstrings := Option.some.inj hflat
    split at hstrings
    next => exact ⟨_, rfl, hasType_ofStrings hstrings⟩
    next => simp at hstrings
  next =>
    obtain ⟨blob, -, rfl⟩ := map_eq_ok_iff.mp (Option.some.inj hflat)
    exact ⟨_, rfl, .bytes blob⟩
  next => simp at hflat

/-- Packing a value in which all variants are typed makes a variant of the type it is packed at. -/
theorem Pack.Packs.hasType [Codecs] {settings : Settings} {depth : Int} {type : SigType}
    {x : Native}
    {v : Variant} (hpacks : Packs settings depth type x v) (hwf : type.WellFormed false)
    (hx : x.IsTyped) : HasType v type := by
  induction hpacks with
  | basic _ hbuilt => exact hasType_ofBasic hbuilt
  | boxed content =>
      obtain ⟨type, hcontent⟩ := Native.isTyped_variant_iff.mp hx
      exact .box hcontent
  | implied htype _ _ ih => exact .box (ih (wellFormed_of_intrinsicType? htype) hx)
  | nothing =>
      cases hwf with
      | maybe helement => exact .nothing helement
  | just _ _ ih =>
      cases hwf with
      | maybe helement => exact .just (ih helement hx)
  | flat hflat =>
      obtain ⟨code, rfl, htyped⟩ := hasType_of_packFlat? hflat
      exact htyped
  | array parts hflat helements _ ih =>
      have hitems := Native.handedDown_isTyped.elementsOf hx helements
      cases hwf with
      | array helement =>
          refine .array helement ?_ ?_
          · rintro rfl
            simp [packFlat?] at hflat
          · intro item hitem
            obtain ⟨part, hpart, rfl⟩ := List.mem_map.mp hitem
            exact ih part hpart helement (hitems _ (List.mem_map_of_mem hpart))
  | tuple parts hitems _ ih =>
      have hitems := Native.handedDown_isTyped.sequence? hx hitems
      cases hwf with
      | tuple hmembers =>
          have htuple := HasType.tuple (parts.map (fun part => (part.2.2, part.1)))
          rw [List.map_map, List.map_map] at htuple
          apply htuple
          intro pair hpair
          obtain ⟨part, hpart, rfl⟩ := List.mem_map.mp hpair
          exact ih part hpart (hmembers _ (List.mem_map_of_mem hpart))
            (hitems _ (List.mem_map_of_mem hpart))
  | dictEntry hitems _ _ ihkey ihvalue =>
      cases hwf with
      | dictEntry hbasic hkey hvalue =>
          have hboth := Native.handedDown_isTyped.sequence? hx hitems
          obtain ⟨code, rfl⟩ := hkey.exists_code_of_isBasic hbasic
          exact .entry (ihkey hkey (hboth _ (by simp))) (ihvalue hvalue (hboth _ (by simp)))

end TypedVariant
