import TypedVariant.Proofs.Pack.Step
import TypedVariant.Proofs.Signature.Parsing
import TypedVariant.Proofs.Variant.Building

/-!
# What packing makes of a value

`Packs` says which variants packing makes of a value at a type, without looking
at any text. It is complete: packing a value against a text succeeds exactly
when an admitted type stands at the front of the text at which the value is
packed, and it takes the letters of that type and no more.
-/

namespace TypedVariant.Pack

open Signature (Admits)

/-- The variants that a value is packed as at a type which lies at the given depth. A value is
packed by its type, except that a box takes any variant as it is, and anything else at the type
that its kind implies. -/
inductive Packs [Codecs] (settings : Settings) : Int → SigType → Native → Variant → Prop
  | basic {depth : Int} {code : BasicCode} {x : Native} {v : Variant}
      (hunboxed : x.asVariant? = none) (hbuilt : Variant.ofBasic code x = .ok v) :
      Packs settings depth (.basic code) x v
  | boxed {depth : Int} (content : Variant) :
      Packs settings depth .variant (.variant content) (.box content)
  | implied {depth : Int} {type : SigType} {x : Native} {content : Variant}
      (htype : x.intrinsicType? = some type)
      (hfits : depth + 1 + type.nesting ≤ settings.maxDepth)
      (hcontent : Packs settings (depth + 1) type x content) :
      Packs settings depth .variant x (.box content)
  | nothing {depth : Int} {element : SigType} (htyped : element ≠ .variant) :
      Packs settings depth (.maybe element) .null (.nothing element.text)
  | just {depth : Int} {element : SigType} {x : Native} {content : Variant}
      (hpresent : x.isNull = false) (hcontent : Packs settings (depth + 1) element x content) :
      Packs settings depth (.maybe element) x (.just content)
  | flat {depth : Int} {element : SigType} {x : Native} {v : Variant}
      (hflat : packFlat? settings element x = some (.ok v)) :
      Packs settings depth (.array element) x v
  | array {depth : Int} {element : SigType} {x : Native} (parts : List (Native × Variant))
      (hflat : packFlat? settings element x = none)
      (helements : elementsOf element x = .ok (parts.map Prod.fst))
      (hparts : ∀ part ∈ parts, Packs settings (depth + 1) element part.1 part.2) :
      Packs settings depth (.array element) x (.array element.text (parts.map Prod.snd))
  | tuple {depth : Int} {x : Native} (parts : List (SigType × Native × Variant))
      (hitems : x.sequence? = some (parts.map (·.2.1)))
      (hparts : ∀ part ∈ parts, Packs settings (depth + 1) part.1 part.2.1 part.2.2) :
      Packs settings depth (.tuple (parts.map Prod.fst)) x (.tuple (parts.map (·.2.2)))
  | dictEntry {depth : Int} {keyType valueType : SigType} {x keyItem valueItem : Native}
      {key value : Variant} (hitems : x.sequence? = some [keyItem, valueItem])
      (hkey : Packs settings (depth + 1) keyType keyItem key)
      (hvalue : Packs settings (depth + 1) valueType valueItem value) :
      Packs settings depth (.dictEntry keyType valueType) x (.entry key value)

variable {settings : Settings} {signature : String} {depth : Int} {simple : Bool}

/-! ## Types of packed values -/

/-- The arrays that are packed as a whole are those of strings and those of bytes. -/
theorem typeLetters_of_packFlat? [Codecs] {element : SigType} {x : Native} {v : Variant}
    (hflat : packFlat? settings element x = some (.ok v)) :
    v.typeLetters = 'a' :: element.letters := by
  unfold packFlat? at hflat
  split at hflat
  next =>
    have hstrings := Option.some.inj hflat
    split at hstrings
    next items _ =>
      obtain ⟨values, -, -, rfl⟩ := Variant.ofStrings_eq_ok_iff.mp hstrings
      rfl
    next => simp at hstrings
  next =>
    obtain ⟨blob, -, rfl⟩ := map_eq_ok_iff.mp (Option.some.inj hflat)
    rfl
  next => simp at hflat

/-- The type string of a packed value is the text of the type it was packed at. -/
theorem Packs.typeLetters [Codecs] {type : SigType} {x : Native} {v : Variant}
    (hpacks : Packs settings depth type x v) : v.typeLetters = type.letters := by
  induction hpacks with
  | basic _ hbuilt => exact Variant.typeLetters_ofBasic hbuilt
  | boxed content => rfl
  | implied => rfl
  | nothing => simp [Variant.typeLetters, SigType.letters]
  | just _ _ ih => rw [Variant.typeLetters, ih, SigType.letters]
  | flat hflat => rw [typeLetters_of_packFlat? hflat, SigType.letters]
  | array => simp [Variant.typeLetters, SigType.letters]
  | tuple parts _ _ ih => exact Variant.typeLetters_tuple ih
  | dictEntry _ _ _ ihkey ihvalue => rw [Variant.typeLetters, ihkey, ihvalue, SigType.letters]

/-- A value is packed into a box as a variant of the type that its signature is inferred from. -/
theorem Packs.inferSignature [Codecs] {x : Native} {content : Variant}
    (hpacks : Packs settings depth .variant x (.box content)) :
    x.inferSignature = .ok content.typeString := by
  cases hpacks with
  | boxed => rfl
  | implied htype _ hcontent =>
      unfold Native.inferSignature
      split
      next => simp [Native.intrinsicType?] at htype
      next =>
        rw [htype, Variant.typeString, hcontent.typeLetters]
        rfl

theorem Packs.exists_content [Codecs] {x : Native} {v : Variant}
    (hpacks : Packs settings depth .variant x v) :
    ∃ content, v = .box content ∧ x.inferSignature = .ok content.typeString := by
  obtain ⟨content, rfl⟩ : ∃ content, v = .box content := by
    cases hpacks with
    | boxed content => exact ⟨content, rfl⟩
    | implied => exact ⟨_, rfl⟩
  exact ⟨content, rfl, hpacks.inferSignature⟩

/-! ## From derivations to packing -/

/-- No text of a type begins with the bracket that closes a tuple. -/
theorem exists_letters_cons {wildcards : Bool} {type : SigType}
    (hwf : type.WellFormed wildcards) : ∃ c letters, type.letters = c :: letters ∧ c ≠ ')' := by
  cases hwf with
  | basic code =>
      refine ⟨code.letter, [], rfl, ?_⟩
      intro hclose
      have hletter := BasicCode.ofLetter?_letter code
      simp [hclose, BasicCode.ofLetter?] at hletter
  | @wildcard kind _ => cases kind <;> exact ⟨_, _, rfl, by decide⟩
  | variant | maybe _ | array _ | tuple _ | dictEntry _ _ _ => exact ⟨_, _, rfl, by decide⟩

theorem missingMembers_close (left : List Char) :
    missingMembers settings signature depth (')' :: left) = .ok 0 := by
  rfl

/-- An array keeps elements that all have the type string it is to hold. -/
theorem arrayOf_eq_ok {element : SigType} {items : List Variant}
    (hbyte : element.text ≠ "y") (hitems : ∀ v ∈ items, v.typeLetters = element.letters) :
    Variant.arrayOf element.text items = .ok (.array element.text items) := by
  have htext : ∀ v ∈ items, v.typeString = element.text := by
    intro v hv
    rw [Variant.typeString, hitems v hv, SigType.text]
  rw [Variant.arrayOf_of_typeString htext, if_neg hbyte]

theorem text_ne_byte_of_packFlat? [Codecs] {element : SigType} {x : Native}
    (hwf : element.WellFormed false) (hflat : packFlat? settings element x = none) :
    element.text ≠ "y" := by
  intro htext
  have hletters : element.letters = (SigType.basic (.integer .byte)).letters := by
    rw [← SigType.toList_text, htext]
    rfl
  obtain rfl := SigType.letters_inj hwf (.basic _) hletters
  simp [packFlat?] at hflat

theorem wellFormed_of_intrinsicType? {x : Native} {type : SigType}
    (htype : x.intrinsicType? = some type) : type.WellFormed false := by
  cases x with
  | map _ =>
      obtain rfl := Option.some.inj htype
      exact .array (.dictEntry rfl (.basic _) .variant)
  | list _ | tuple _ =>
      obtain rfl := Option.some.inj htype
      exact .array .variant
  | blob _ _ =>
      obtain rfl := Option.some.inj htype
      exact .array (.basic _)
  | bool _ | int _ | double _ | text _ =>
      obtain rfl := Option.some.inj htype
      exact .basic _
  | _ => simp [Native.intrinsicType?] at htype

theorem asVariant?_of_intrinsicType? {x : Native} {type : SigType}
    (htype : x.intrinsicType? = some type) : x.asVariant? = none := by
  cases x <;> first | rfl | simp [Native.intrinsicType?] at htype

/-- In front of whatever follows, a value is packed against the letters of a type, and these are all
that is taken. -/
def PacksThrough [Codecs] (settings : Settings) (depth : Int) (simple : Bool) (type : SigType)
    (x : Native)
    (v : Variant) : Prop :=
  ∀ (signature : String) (left : List Char),
    packValue settings signature depth simple (type.letters ++ left) x = (.ok v, left)

variable {x : Native} {v : Variant}

theorem packsThrough_basic [Codecs] (hfits : depth ≤ settings.maxDepth) {code : BasicCode}
    (hunboxed : x.asVariant? = none) (hbuilt : Variant.ofBasic code x = .ok v) :
    PacksThrough settings depth simple (.basic code) x v := by
  intro signature left
  rw [SigType.letters, List.singleton_append, packValue_basic hfits, hunboxed]
  simp only [hbuilt]

theorem packsThrough_boxed [Codecs] (hfits : depth ≤ settings.maxDepth) (content : Variant) :
    PacksThrough settings depth false .variant (.variant content) (.box content) := by
  intro signature left
  rw [SigType.letters, List.singleton_append, packValue_box hfits]
  rfl

theorem packsThrough_implied [Codecs] (hfits : depth ≤ settings.maxDepth) {type : SigType}
    {content : Variant} (htype : x.intrinsicType? = some type)
    (hcontent : PacksThrough settings (depth + 1) false type x content) :
    PacksThrough settings depth false .variant x (.box content) := by
  intro signature left
  -- The content is packed against a text of its own, with nothing behind the type.
  have hpacked := hcontent type.text []
  rw [List.append_nil] at hpacked
  rw [SigType.letters, List.singleton_append, packValue_box hfits,
    asVariant?_of_intrinsicType? htype, htype]
  simp only [hpacked]
  rfl

theorem packsThrough_nothing [Codecs] (hfits : depth ≤ settings.maxDepth) {element : SigType}
    (helement : Admits ⟨false, settings.maxDepth⟩ (depth + 1) false element)
    (htyped : element ≠ .variant) :
    PacksThrough settings depth false (.maybe element) .null (.nothing element.text) := by
  intro signature left
  rw [SigType.letters, List.cons_append, packValue_maybe hfits,
    Signature.readOne_letters helement, if_pos (show Native.null.isNull = true from rfl)]
  cases element <;> first | rfl | exact absurd rfl htyped

theorem packsThrough_just [Codecs] (hfits : depth ≤ settings.maxDepth) {element : SigType}
    {content : Variant} (hpresent : x.isNull = false)
    (hcontent : PacksThrough settings (depth + 1) false element x content) :
    PacksThrough settings depth false (.maybe element) x (.just content) := by
  intro signature left
  rw [SigType.letters, List.cons_append, packValue_maybe hfits, hcontent signature left]
  simp [hpresent, Except.map]

theorem packsThrough_flat [Codecs] (hfits : depth ≤ settings.maxDepth) {element : SigType}
    (helement : Admits ⟨false, settings.maxDepth⟩ (depth + 1) false element)
    (hflat : packFlat? settings element x = some (.ok v)) :
    PacksThrough settings depth false (.array element) x v := by
  intro signature left
  rw [SigType.letters, List.cons_append, packValue_array hfits,
    Signature.readOne_letters helement]
  simp only [hflat]

theorem packsThrough_array [Codecs] (hfits : depth ≤ settings.maxDepth) {element : SigType}
    {parts : List (Native × Variant)}
    (helement : Admits ⟨false, settings.maxDepth⟩ (depth + 1) false element)
    (hflat : packFlat? settings element x = none)
    (helements : elementsOf element x = .ok (parts.map Prod.fst))
    (htypes : ∀ part ∈ parts, part.2.typeLetters = element.letters)
    (hparts : ∀ part ∈ parts, PacksThrough settings (depth + 1) false element part.1 part.2) :
    PacksThrough settings depth false (.array element) x
      (.array element.text (parts.map Prod.snd)) := by
  intro signature left
  -- Each element is packed against a text of its own, which is that of the element type alone.
  have heach : packEach settings element.text (depth + 1) element.letters (parts.map Prod.fst) =
      .ok (parts.map Prod.snd) := by
    rw [packEach_eq_mapM]
    refine mapM_map_eq_ok fun part hpart => ?_
    have hpacked := hparts part hpart element.text []
    rw [List.append_nil] at hpacked
    rw [hpacked]
  rw [SigType.letters, List.cons_append, packValue_array hfits,
    Signature.readOne_letters helement]
  simp only [hflat, helements, Except.bind, heach,
    arrayOf_eq_ok (text_ne_byte_of_packFlat? helement.wellFormed hflat)
      (List.forall_mem_map.mpr htypes)]

theorem packsThrough_tuple [Codecs] (hfits : depth ≤ settings.maxDepth)
    {parts : List (SigType × Native × Variant)} (hitems : x.sequence? = some (parts.map (·.2.1)))
    (hwf : ∀ part ∈ parts, part.1.WellFormed false)
    (hparts : ∀ part ∈ parts,
      PacksThrough settings (depth + 1) false part.1 part.2.1 part.2.2) :
    PacksThrough settings depth false (.tuple (parts.map Prod.fst)) x
      (.tuple (parts.map (·.2.2))) := by
  intro signature left
  rw [SigType.letters, List.cons_append, packValue_tuple hfits, hitems, List.append_assoc]
  simp only
  rw [packMembers_of_parts (fun part hpart => exists_letters_cons (hwf part hpart))
    (fun part hpart => hparts part hpart signature)]
  simp only [List.singleton_append, missingMembers_close]
  rfl

theorem packsThrough_dictEntry [Codecs] (hfits : depth ≤ settings.maxDepth)
    {keyType valueType : SigType}
    {keyItem valueItem : Native} {key value : Variant}
    (hitems : x.sequence? = some [keyItem, valueItem])
    (hkey : PacksThrough settings (depth + 1) true keyType keyItem key)
    (hvalue : PacksThrough settings (depth + 1) false valueType valueItem value) :
    PacksThrough settings depth false (.dictEntry keyType valueType) x (.entry key value) := by
  intro signature left
  rw [SigType.letters, List.cons_append, packValue_dictEntry hfits, hitems]
  simp only [List.append_assoc]
  rw [hkey signature]
  simp only
  rw [hvalue signature]
  rfl

/-- Where a type is admitted, a value with a derivation at it is packed, and exactly the letters of
the type are taken. -/
theorem packsThrough_of_packs [Codecs] {type : SigType} (hpacks : Packs settings depth type x v)
    (simple : Bool) (hadmits : Admits ⟨false, settings.maxDepth⟩ depth simple type) :
    PacksThrough settings depth simple type x v := by
  -- Only a basic type stands where keys do, so every other case is one of `simple = false`.
  induction hpacks generalizing simple with
  | basic hunboxed hbuilt => exact packsThrough_basic hadmits.depth_le hunboxed hbuilt
  | boxed content =>
      obtain ⟨rfl, hfits⟩ := Signature.admits_variant_iff.mp hadmits
      exact packsThrough_boxed hfits content
  | implied htype hnested _ ih =>
      obtain ⟨rfl, hfits⟩ := Signature.admits_variant_iff.mp hadmits
      exact packsThrough_implied hfits htype
        (ih false ⟨wellFormed_of_intrinsicType? htype, hnested, by simp⟩)
  | nothing htyped =>
      obtain ⟨rfl, helement⟩ := Signature.admits_maybe_iff.mp hadmits
      exact packsThrough_nothing hadmits.depth_le helement htyped
  | just hpresent _ ih =>
      obtain ⟨rfl, helement⟩ := Signature.admits_maybe_iff.mp hadmits
      exact packsThrough_just hadmits.depth_le hpresent (ih false helement)
  | flat hflat =>
      obtain ⟨rfl, helement⟩ := Signature.admits_array_iff.mp hadmits
      exact packsThrough_flat hadmits.depth_le helement hflat
  | array parts hflat helements hparts ih =>
      obtain ⟨rfl, helement⟩ := Signature.admits_array_iff.mp hadmits
      exact packsThrough_array hadmits.depth_le helement hflat helements
        (fun part hpart => (hparts part hpart).typeLetters)
        (fun part hpart => ih part hpart false helement)
  | tuple parts hitems _ ih =>
      obtain ⟨rfl, hfits, hmembers⟩ := Signature.admits_tuple_iff.mp hadmits
      rw [List.forall_mem_map] at hmembers
      exact packsThrough_tuple hfits hitems (fun part hpart => (hmembers part hpart).wellFormed)
        (fun part hpart => ih part hpart false (hmembers part hpart))
  | dictEntry hitems _ _ ihkey ihvalue =>
      obtain ⟨rfl, hkey, hvalue⟩ := Signature.admits_dictEntry_iff.mp hadmits
      exact packsThrough_dictEntry hadmits.depth_le hitems (ihkey true hkey)
        (ihvalue false hvalue)

/-! ## From packing to derivations -/

/-- Packing took a type from the front of a text, and the variant has a derivation at it. -/
def TakesType [Codecs] (settings : Settings) (depth : Int) (simple : Bool) (text : List Char)
    (x : Native)
    (v : Variant) (left : List Char) : Prop :=
  ∃ type, Admits ⟨false, settings.maxDepth⟩ depth simple type ∧
    text = type.letters ++ left ∧ Packs settings depth type x v

theorem exists_eq_tuple_of_letters {wildcards : Bool} {type : SigType} {text rest : List Char}
    (hwf : type.WellFormed wildcards) (htext : type.letters ++ rest = '(' :: text) :
    ∃ members, type = .tuple members := by
  cases hwf with
  | basic code =>
      have hletter := BasicCode.ofLetter?_letter code
      rw [(List.cons.inj htext).1] at hletter
      simp [BasicCode.ofLetter?] at hletter
  | @tuple members _ => exact ⟨members, rfl⟩
  | @wildcard kind _ => cases kind <;> simp [SigType.letters, Wildcard.letter] at htext
  | variant | maybe _ | array _ | dictEntry _ _ _ => simp [SigType.letters] at htext

/-- Where nothing is missing of a tuple, the bracket that closes it stands next. -/
theorem exists_close_of_missingMembers {left : List Char} (hfits : depth - 1 ≤ settings.maxDepth)
    (hmissing : missingMembers settings signature depth left = .ok 0) :
    ∃ rest, left = ')' :: rest := by
  unfold missingMembers at hmissing
  cases hread : Signature.readWithin ⟨false, settings.maxDepth⟩ (depth - 1) false
      (.type [.tuple []]) left with
  | mk outcome rest =>
      rw [hread] at hmissing
      cases outcome with
      | error refusal => simp at hmissing
      | ok type =>
          have hsound : (Signature.Awaiting.type [.tuple []]).Sound ⟨false, settings.maxDepth⟩
              (depth - 1) false :=
            ⟨rfl, by simpa using hfits, by simp [Signature.Open.types], trivial⟩
          obtain ⟨hadmits, htext⟩ := Signature.readWithin_sound hsound hread
          obtain ⟨members, rfl⟩ := exists_eq_tuple_of_letters hadmits.wellFormed htext.symm
          obtain rfl : members = [] := by simpa using hmissing
          exact ⟨rest, (List.cons.inj htext).2⟩

/-- Whatever packing makes of a value at the front of a text, at any depth, has a derivation. -/
def TakesTypes [Codecs] (settings : Settings) (x : Native) (text : List Char) : Prop :=
  ∀ (signature : String) (depth : Int) (simple : Bool) (v : Variant) (left : List Char),
    packValue settings signature depth simple text x = (.ok v, left) →
      TakesType settings depth simple text x v left

variable {rest left : List Char}

theorem takesType_basic [Codecs] (hfits : depth ≤ settings.maxDepth) {code : BasicCode}
    (hpack : packValue settings signature depth simple (code.letter :: rest) x = (.ok v, left)) :
    TakesType settings depth simple (code.letter :: rest) x v left := by
  rw [packValue_basic hfits] at hpack
  split at hpack
  next => simp at hpack
  next hunboxed =>
    obtain ⟨hbuilt, rfl⟩ := Prod.mk.inj hpack
    exact ⟨.basic code, Signature.admits_basic_iff.mpr hfits, rfl, .basic hunboxed hbuilt⟩

theorem takesType_box [Codecs] (hfits : depth ≤ settings.maxDepth)
    (himplied : ∀ type, x.intrinsicType? = some type → TakesTypes settings x type.letters)
    (hpack : packValue settings signature depth false ('v' :: rest) x = (.ok v, left)) :
    TakesType settings depth false ('v' :: rest) x v left := by
  have hadmits : Admits ⟨false, settings.maxDepth⟩ depth false .variant :=
    Signature.admits_variant_iff.mpr ⟨rfl, hfits⟩
  rw [packValue_box hfits] at hpack
  split at hpack
  next content hvariant =>
    obtain ⟨hv, rfl⟩ := Prod.mk.inj hpack
    obtain rfl := Except.ok.inj hv
    have hx : x = .variant content := by
      cases x <;> simp_all [Native.asVariant?]
    subst hx
    exact ⟨.variant, hadmits, rfl, .boxed content⟩
  next => simp at hpack
  next type hunboxed htype =>
    obtain ⟨hv, rfl⟩ := Prod.mk.inj hpack
    obtain ⟨content, hcontent, rfl⟩ := map_eq_ok_iff.mp hv
    obtain ⟨found, hfound, htext, hpacks⟩ := himplied type htype _ _ _ _ _ (Prod.ext hcontent rfl)
    obtain ⟨rfl, -⟩ := SigType.letters_append_inj (wellFormed_of_intrinsicType? htype)
      hfound.wellFormed ((List.append_nil _).trans htext)
    exact ⟨.variant, hadmits, rfl, .implied htype hfound.fits hpacks⟩

theorem takesType_maybe [Codecs] (hfits : depth ≤ settings.maxDepth)
    (hrest : TakesTypes settings x rest)
    (hpack : packValue settings signature depth false ('m' :: rest) x = (.ok v, left)) :
    TakesType settings depth false ('m' :: rest) x v left := by
  rw [packValue_maybe hfits] at hpack
  split at hpack
  next hnull =>
    split at hpack
    next => simp at hpack
    next => simp at hpack
    next element last hne hread =>
      obtain ⟨hv, rfl⟩ := Prod.mk.inj hpack
      obtain rfl := Except.ok.inj hv
      obtain ⟨helement, rfl⟩ := Signature.readOne_eq_ok_iff.mp hread
      have hx : x = .null := by
        cases x <;> simp_all [Native.isNull]
      subst hx
      exact ⟨.maybe element, Signature.admits_maybe_iff.mpr ⟨rfl, helement⟩, rfl, .nothing hne⟩
  next hpresent =>
    obtain ⟨hv, hleft⟩ := Prod.mk.inj hpack
    obtain ⟨content, hcontent, rfl⟩ := map_eq_ok_iff.mp hv
    obtain ⟨element, helement, rfl, hpacks⟩ := hrest _ _ _ _ _ (Prod.ext hcontent hleft)
    exact ⟨.maybe element, Signature.admits_maybe_iff.mpr ⟨rfl, helement⟩, rfl,
      .just (by simpa using hpresent) hpacks⟩

theorem takesType_array [Codecs] (hfits : depth ≤ settings.maxDepth)
    (hlower : ∀ y text, y.height < x.height → TakesTypes settings y text)
    (hpack : packValue settings signature depth false ('a' :: rest) x = (.ok v, left)) :
    TakesType settings depth false ('a' :: rest) x v left := by
  rw [packValue_array hfits] at hpack
  split at hpack
  next => simp at hpack
  next element last hread =>
    obtain ⟨hv, rfl⟩ := Prod.mk.inj hpack
    obtain ⟨helement, rfl⟩ := Signature.readOne_eq_ok_iff.mp hread
    refine ⟨.array element, Signature.admits_array_iff.mpr ⟨rfl, helement⟩, rfl, ?_⟩
    split at hv
    next packed hflat =>
      subst hv
      exact .flat hflat
    next hflat =>
      obtain ⟨items, hitems, heach⟩ := bind_eq_ok_iff.mp hv
      obtain ⟨vs, hvs, harray⟩ := bind_eq_ok_iff.mp heach
      rw [packEach_eq_mapM] at hvs
      obtain ⟨parts, rfl, rfl, hparts⟩ := mapM_eq_ok_iff.mp hvs
      have hpacks : ∀ part ∈ parts, Packs settings (depth + 1) element part.1 part.2 := by
        intro part hpart
        have hheight := height_lt_of_elementsOf hitems part.1 (List.mem_map_of_mem hpart)
        obtain ⟨type, htype, htext, hpacks⟩ :=
          hlower part.1 _ hheight _ _ _ _ _ (Prod.ext (hparts part hpart) rfl)
        -- An element need not use up its text, but no type begins another.
        obtain ⟨rfl, -⟩ := SigType.letters_append_inj helement.wellFormed htype.wellFormed
          ((List.append_nil _).trans htext)
        exact hpacks
      have hletters : ∀ v ∈ parts.map Prod.snd, v.typeLetters = element.letters := by
        intro v hv
        obtain ⟨part, hpart, rfl⟩ := List.mem_map.mp hv
        exact (hpacks part hpart).typeLetters
      rw [arrayOf_eq_ok (text_ne_byte_of_packFlat? helement.wellFormed hflat) hletters] at harray
      obtain rfl := Except.ok.inj harray
      exact .array parts hflat hitems hpacks

theorem takesType_tuple [Codecs] (hfits : depth ≤ settings.maxDepth)
    (hlower : ∀ y text, y.height < x.height → TakesTypes settings y text)
    (hpack : packValue settings signature depth false ('(' :: rest) x = (.ok v, left)) :
    TakesType settings depth false ('(' :: rest) x v left := by
  rw [packValue_tuple hfits] at hpack
  split at hpack
  next => simp at hpack
  next items hitems =>
    split at hpack
    next => simp at hpack
    next members middle hmembers =>
      split at hpack
      next => simp at hpack
      next hmissing =>
        obtain ⟨hv, rfl⟩ := Prod.mk.inj hpack
        obtain rfl := Except.ok.inj hv
        obtain ⟨last, rfl⟩ := exists_close_of_missingMembers (by omega) hmissing
        obtain ⟨parts, rfl, rfl, rfl, hparts⟩ := exists_parts_of_packMembers
          (fun item hitem text v left hpacked => by
            obtain ⟨type, htype, htext, hpacks⟩ :=
              hlower item text (height_lt_of_sequence? hitems item hitem) _ _ _ _ _ hpacked
            exact ⟨type, htext, And.intro htype hpacks⟩) hmembers
        have hadmits : Admits ⟨false, settings.maxDepth⟩ depth false
            (.tuple (parts.map Prod.fst)) := by
          refine Signature.admits_tuple_iff.mpr ⟨rfl, hfits, ?_⟩
          intro member hmember
          obtain ⟨part, hpart, rfl⟩ := List.mem_map.mp hmember
          exact (hparts part hpart).1
        refine ⟨.tuple (parts.map Prod.fst), hadmits, ?_,
          .tuple parts hitems (fun part hpart => (hparts part hpart).2)⟩
        simp [SigType.letters]
      next => simp at hpack

theorem takesType_dictEntry [Codecs] (hfits : depth ≤ settings.maxDepth)
    (hlower : ∀ y text, y.height < x.height → TakesTypes settings y text)
    (hpack : packValue settings signature depth false ('{' :: rest) x = (.ok v, left)) :
    TakesType settings depth false ('{' :: rest) x v left := by
  rw [packValue_dictEntry hfits] at hpack
  split at hpack
  next => simp at hpack
  next keyItem valueItem hitems =>
    have hheight := height_lt_of_sequence? hitems
    split at hpack
    next => simp at hpack
    next key middle hkey =>
      split at hpack
      next => simp at hpack
      next value last hvalue =>
        obtain ⟨hv, rfl⟩ := Prod.mk.inj hpack
        obtain rfl := Except.ok.inj hv
        obtain ⟨keyType, hkeyAdmits, rfl, hkeyPacks⟩ :=
          hlower keyItem _ (hheight _ (by simp)) _ _ _ _ _ hkey
        obtain ⟨valueType, hvalueAdmits, rfl, hvaluePacks⟩ :=
          hlower valueItem _ (hheight _ (by simp)) _ _ _ _ _ hvalue
        refine ⟨.dictEntry keyType valueType,
          Signature.admits_dictEntry_iff.mpr ⟨rfl, hkeyAdmits, hvalueAdmits⟩, ?_,
          .dictEntry hitems hkeyPacks hvaluePacks⟩
        simp [SigType.letters]
      next => simp at hpack
  next => simp at hpack

/-- What packing makes has a derivation, and the text it takes is that of an admitted type. -/
theorem takesTypes [Codecs] (settings : Settings) (x : Native) (text : List Char) :
    TakesTypes settings x text := by
  induction x, text using packing_induction with
  | step x text hlower hmaybe hbox =>
      intro signature depth simple v left hpack
      rcases packValue_cases settings signature depth simple text x with
        hdeep | ⟨hfits, ⟨e, stop, -, hrefused⟩ | ⟨code, rest, rfl⟩ | ⟨rfl, c, rest, rfl, hbegins⟩⟩
      · rw [packValue_tooDeep hdeep] at hpack
        simp at hpack
      · rw [hrefused _ hfits] at hpack
        simp at hpack
      · exact takesType_basic hfits hpack
      · rcases hbegins with rfl | rfl | rfl | rfl | rfl
        · exact takesType_box hfits (fun type => hbox rest type rfl) hpack
        · exact takesType_maybe hfits (hmaybe rest rfl) hpack
        · exact takesType_array hfits hlower hpack
        · exact takesType_tuple hfits hlower hpack
        · exact takesType_dictEntry hfits hlower hpack

/-- Packing succeeds exactly on the admitted types at which the value has a derivation. -/
theorem packValue_eq_ok_iff [Codecs] {text : List Char} :
    packValue settings signature depth simple text x = (.ok v, left) ↔
      TakesType settings depth simple text x v left := by
  constructor
  · exact takesTypes settings x text signature depth simple v left
  · rintro ⟨type, hadmits, rfl, hpacks⟩
    exact packsThrough_of_packs hpacks simple hadmits signature left

end TypedVariant.Pack
