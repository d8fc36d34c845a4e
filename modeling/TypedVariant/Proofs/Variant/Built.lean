import TypedVariant.Pack.Value
import TypedVariant.Proofs.Pack.Consumption
import TypedVariant.Proofs.Variant.Typed

/-!
# Built variants

The variants that calls of the constructors lead to, in any order and from any
native values, as long as the variants in these are built as well. A type given
to a constructor is text or what one of the parsers answered with. Every
constructor keeps the invariant that its variants are typed.
-/

namespace TypedVariant

/-- A source of a type that callers have: text, a type that was parsed from some text within some
depth, or a value that is no type. -/
def TypeSource.IsParsed : TypeSource → Prop
  | .text _ | .other _ => True
  | .type given => ∃ maxDepth text, Signature.parse maxDepth text = .ok given ∨
      Signature.parsePattern maxDepth text = .ok given

/-- A variant that calls of the constructors end with. Native arguments are arbitrary, except that
the variants in them are built too, and so are the codecs that packing finds. -/
inductive Built : Variant → Prop
  | basic {code : BasicCode} {x : Native} {v : Variant} (hbuilt : Variant.ofBasic code x = .ok v) :
      Built v
  | box {x : Native} {v : Variant} (hargument : ∀ w ∈ x.variants, Built w)
      (hbuilt : Variant.ofContent x = .ok v) : Built v
  | maybe {element : Option TypeSource} {x : Native} {v : Variant}
      (hsource : ∀ source ∈ element, source.IsParsed) (hargument : ∀ w ∈ x.variants, Built w)
      (hbuilt : Variant.ofMaybe element x = .ok v) : Built v
  | array {element : Option TypeSource} {x : Native} {v : Variant}
      (hsource : ∀ source ∈ element, source.IsParsed) (hargument : ∀ w ∈ x.variants, Built w)
      (hbuilt : Variant.ofArray element x = .ok v) : Built v
  | strings {x : Native} {v : Variant} (hbuilt : Variant.ofStringVector x = .ok v) : Built v
  | tuple {x : Native} {v : Variant} (hargument : ∀ w ∈ x.variants, Built w)
      (hbuilt : Variant.ofTuple x = .ok v) : Built v
  | entry {x y : Native} {v : Variant} (hkey : ∀ w ∈ x.variants, Built w)
      (hvalue : ∀ w ∈ y.variants, Built w) (hbuilt : Variant.ofEntry x y = .ok v) : Built v
  | rawBytes {source : TypeSource} {x : Native} {v : Variant}
      (hbuilt : Variant.ofRawBytes source x = .ok v) : Built v
  | map {entries : List (Native × Native)} {v : Variant}
      (hargument : ∀ w ∈ (Native.map entries).variants, Built w)
      (hbuilt : Variant.ofMap entries = .ok v) : Built v
  | packed [Codecs] {settings : Settings} {signature x : Native} {v : Variant}
      (hargument : ∀ w ∈ x.variants, Built w) (hbuilt : pack settings signature x = .ok v) :
      Built v

namespace Variant

variable {v : Variant} {x : Native} {items : List Native}

/-! ## Parts of arguments -/

theorem require_eq_ok_iff {what : String} : require what x = .ok v ↔ x = .variant v := by
  cases x <;> simp [require]

/-- Items that all are variants are the variants of a list. -/
theorem exists_of_require {what : String} {children : List Variant}
    (hchildren : items.mapM (require what) = .ok children) : items = children.map .variant := by
  obtain ⟨parts, rfl, rfl, hparts⟩ := mapM_eq_ok_iff.mp hchildren
  rw [List.map_map]
  apply List.map_congr_left
  intro part hpart
  exact require_eq_ok_iff.mp (hparts part hpart)

/-- The children of a typed container are typed. -/
theorem IsTyped.children? {children : List Variant} (hv : v.IsTyped)
    (hchildren : v.children? = some children) : ∀ w ∈ children, w.IsTyped := by
  obtain ⟨type, htyped⟩ := hv
  cases htyped with
  | boolean | integer | double | text => simp [Variant.children?] at hchildren
  | nothing =>
      obtain rfl := Option.some.inj hchildren
      simp
  | box hcontent | just hcontent =>
      obtain rfl := Option.some.inj hchildren
      exact List.forall_mem_singleton.mpr ⟨_, hcontent⟩
  | bytes blob =>
      obtain rfl := Option.some.inj hchildren
      intro w hw
      obtain ⟨b, -, rfl⟩ := List.mem_map.mp hw
      exact ⟨_, hasType_ofByte b⟩
  | array _ _ hitems =>
      obtain rfl := Option.some.inj hchildren
      exact fun w hw => ⟨_, hitems w hw⟩
  | tuple parts hparts =>
      obtain rfl := Option.some.inj hchildren
      intro w hw
      obtain ⟨part, hpart, rfl⟩ := List.mem_map.mp hw
      exact ⟨_, hparts part hpart⟩
  | entry hkey hvalue =>
      obtain rfl := Option.some.inj hchildren
      simp only [List.forall_mem_cons]
      exact ⟨⟨_, hkey⟩, ⟨_, hvalue⟩, by simp⟩

/-- A container is gone through by its children. -/
theorem children_eq_of_children? {children : List Variant}
    (hchildren : v.children? = some children) :
    v.children = .ok (children.map .variant) := by
  have hnative : Native.childrenOf? v = some (children.map .variant) := by
    cases v <;> simp_all [Native.childrenOf?, Variant.children?]
  unfold Variant.children
  rw [hnative]

/-- Going through a typed container meets its children. -/
theorem IsTyped.children (hv : v.IsTyped) (hitems : v.children = .ok items) :
    ∀ item ∈ items, item.IsTyped := by
  cases hchildren : v.children? with
  | some children =>
      rw [children_eq_of_children? hchildren] at hitems
      obtain rfl := Except.ok.inj hitems
      intro item hitem
      obtain ⟨w, hw, rfl⟩ := List.mem_map.mp hitem
      exact Native.isTyped_variant_iff.mpr (hv.children? hchildren w hw)
  | none =>
      obtain ⟨type, htyped⟩ := hv
      cases htyped with
      | boolean | integer | double | text =>
        simp [Variant.children, Native.childrenOf?, Variant.children?, Variant.tag?,
          Variant.typeLetters] at hitems
      | _ => simp [Variant.children?] at hchildren

end Variant

/-- Whatever is met when going through a value of typed variants holds typed variants alone. -/
theorem Native.IsTyped.iterate {x : Native} {items : List Native} (hx : x.IsTyped)
    (hitems : x.iterate = .ok items) :
    ∀ item ∈ items, item.IsTyped := by
  cases x with
  | list xs | tuple xs | set xs | stream xs mark =>
      obtain rfl := Except.ok.inj hitems
      exact Native.isTyped_of_variantsAll hx
  | map entries =>
      obtain rfl := Except.ok.inj hitems
      intro item hitem w hw
      obtain ⟨entry, hentry, rfl⟩ := List.mem_map.mp hitem
      exact hx w (Native.mem_variantsOfEntries.mpr ⟨entry, hentry, .inl hw⟩)
  | range start stop step =>
      obtain rfl := Except.ok.inj hitems
      intro item hitem
      obtain ⟨value, rfl⟩ := Native.exists_int_of_mem_rangeItems hitem
      exact Native.isTyped_of_variants_eq_nil rfl
  | text value =>
      obtain rfl := Except.ok.inj hitems
      intro item hitem
      obtain ⟨c, -, rfl⟩ := List.mem_map.mp hitem
      exact Native.isTyped_of_variants_eq_nil rfl
  | blob kind data =>
      obtain rfl := Except.ok.inj hitems
      intro item hitem
      obtain ⟨b, -, rfl⟩ := List.mem_map.mp hitem
      exact Native.isTyped_of_variants_eq_nil rfl
  | dictionary w mark =>
      obtain rfl := Except.ok.inj hitems
      intro item hitem
      obtain ⟨value, rfl⟩ := Native.exists_text_of_mem_dictionaryKeys hitem
      exact Native.isTyped_of_variants_eq_nil rfl
  | variant w => exact (Native.isTyped_variant_iff.mp hx).children hitems
  | _ => simp [Native.iterate] at hitems

namespace Variant

variable {v : Variant} {x : Native} {items : List Native}

/-- A type that a source stands for can be spelled, at least in a pattern. -/
theorem exists_wellFormed_of_typeOf {source : TypeSource} {maxDepth : Int} {element : SigType}
    (hsource : source.IsParsed) (htype : Signature.typeOf maxDepth source = .ok (.ok element)) :
    ∃ wildcards, element.WellFormed wildcards := by
  cases source with
  | text signature =>
      obtain ⟨type, hparse, hsame⟩ := map_eq_ok_iff.mp htype
      obtain rfl := Except.ok.inj hsame
      exact ⟨false, (Signature.parse_eq_ok_iff.mp hparse).1.wellFormed⟩
  | type given =>
      obtain rfl := Except.ok.inj (Except.ok.inj htype)
      obtain ⟨limit, text, hparse | hparse⟩ := hsource
      · exact ⟨false, (Signature.parse_eq_ok_iff.mp hparse).1.wellFormed⟩
      · exact ⟨true, (Signature.parsePattern_eq_ok_iff.mp hparse).1.wellFormed⟩
  | other kind => simp [Signature.typeOf] at htype

/-- The type string that a source stands for is that of a definite type. -/
theorem exists_of_elementTypeString {source : TypeSource} {text : String}
    (hsource : source.IsParsed) (htext : elementTypeString source = .ok text) :
    ∃ element : SigType, element.WellFormed false ∧ element.text = text := by
  unfold elementTypeString at htext
  obtain ⟨subject, hsubject, htext⟩ := bind_eq_ok_iff.mp htext
  split at htext
  next element =>
    obtain ⟨wildcards, hwf⟩ := exists_wellFormed_of_typeOf hsource hsubject
    split at htext
    next hdefinite => exact ⟨element, hwf.of_isDefinite hdefinite, Except.ok.inj htext⟩
    next => cases htext
  next => cases htext

/-! ## Constructors -/

/-- Items that are required to be variants are typed variants. -/
theorem isTyped_of_require {what : String} {children : List Variant}
    (htyped : ∀ item ∈ items, item.IsTyped)
    (hchildren : items.mapM (require what) = .ok children) :
    ∀ w ∈ children, w.IsTyped := by
  intro w hw
  rw [exists_of_require hchildren] at htyped
  exact Native.isTyped_variant_iff.mp (htyped _ (List.mem_map_of_mem hw))

theorem isTyped_of_ofContent (hx : x.IsTyped) (hbuilt : ofContent x = .ok v) : v.IsTyped := by
  obtain ⟨content, hcontent, rfl⟩ := map_eq_ok_iff.mp hbuilt
  obtain rfl := require_eq_ok_iff.mp hcontent
  obtain ⟨type, htyped⟩ := Native.isTyped_variant_iff.mp hx
  exact ⟨_, .box htyped⟩

theorem isTyped_of_ofMaybe {element : Option TypeSource}
    (hsource : ∀ source ∈ element, source.IsParsed) (hx : x.IsTyped)
    (hbuilt : ofMaybe element x = .ok v) : v.IsTyped := by
  unfold ofMaybe at hbuilt
  split at hbuilt
  next =>
    split at hbuilt
    next => simp at hbuilt
    next source =>
      obtain ⟨text, htext, rfl⟩ := map_eq_ok_iff.mp hbuilt
      obtain ⟨element, hwf, rfl⟩ := exists_of_elementTypeString (hsource _ rfl) htext
      exact ⟨_, .nothing hwf⟩
  next =>
    obtain ⟨child, hchild, hjust⟩ := bind_eq_ok_iff.mp hbuilt
    obtain rfl := require_eq_ok_iff.mp hchild
    obtain ⟨type, htyped⟩ := Native.isTyped_variant_iff.mp hx
    have hv : v = just child := by
      cases element with
      | none => exact (Except.ok.inj hjust).symm
      | some source =>
          obtain ⟨text, -, hchecked⟩ := bind_eq_ok_iff.mp hjust
          dsimp only at hchecked
          split at hchecked
          next => cases hchecked
          next => exact (Except.ok.inj hchecked).symm
    rw [hv]
    exact ⟨_, .just htyped⟩

theorem isTyped_of_ofArray {element : Option TypeSource}
    (hsource : ∀ source ∈ element, source.IsParsed) (hx : x.IsTyped)
    (hbuilt : ofArray element x = .ok v) : v.IsTyped := by
  unfold ofArray at hbuilt
  obtain ⟨items, hitems, hrequired⟩ := bind_eq_ok_iff.mp hbuilt
  obtain ⟨children, hchildren, harray⟩ := bind_eq_ok_iff.mp hrequired
  have htyped := isTyped_of_require (hx.iterate hitems) hchildren
  split at harray
  next source =>
    obtain ⟨text, htext, harray⟩ := bind_eq_ok_iff.mp harray
    obtain ⟨element, hwf, rfl⟩ := exists_of_elementTypeString (hsource _ rfl) htext
    exact ⟨_, hasType_arrayOf hwf htyped harray⟩
  -- Without an element type, that of the first item is taken for all.
  next _ first rest =>
    obtain ⟨type, hfirst⟩ := htyped first List.mem_cons_self
    rw [hfirst.typeString] at harray
    exact ⟨_, hasType_arrayOf hfirst.wellFormed htyped harray⟩
  next => cases harray

theorem isTyped_of_ofStringVector (hbuilt : ofStringVector x = .ok v) : v.IsTyped := by
  unfold ofStringVector at hbuilt
  split at hbuilt
  next => simp at hbuilt
  next => simp at hbuilt
  next =>
    split at hbuilt
    next => exact ⟨_, hasType_ofStrings hbuilt⟩
    next => simp at hbuilt
    next => simp at hbuilt

theorem isTyped_of_ofTuple (hx : x.IsTyped) (hbuilt : ofTuple x = .ok v) : v.IsTyped := by
  unfold ofTuple at hbuilt
  obtain ⟨items, hitems, hrequired⟩ := bind_eq_ok_iff.mp hbuilt
  obtain ⟨members, hmembers, htuple⟩ := bind_eq_ok_iff.mp hrequired
  obtain rfl := Except.ok.inj htuple
  have htyped := isTyped_of_require (hx.iterate hitems) hmembers
  obtain ⟨parts, rfl, hparts⟩ : ∃ parts : List (Variant × SigType),
      members = parts.map Prod.fst ∧ ∀ part ∈ parts, HasType part.1 part.2 := by
    apply exists_eq_map
    intro member hmember
    obtain ⟨type, htype⟩ := htyped member hmember
    exact ⟨(member, type), htype, rfl⟩
  exact ⟨_, .tuple parts hparts⟩

theorem isTyped_of_ofEntry {y : Native} (hx : x.IsTyped) (hy : y.IsTyped)
    (hbuilt : ofEntry x y = .ok v) : v.IsTyped := by
  unfold ofEntry at hbuilt
  obtain ⟨key, hkey, hrest⟩ := bind_eq_ok_iff.mp hbuilt
  obtain ⟨value, hvalue, hentry⟩ := bind_eq_ok_iff.mp hrest
  obtain rfl := require_eq_ok_iff.mp hkey
  obtain rfl := require_eq_ok_iff.mp hvalue
  obtain ⟨keyType, hkeyType⟩ := Native.isTyped_variant_iff.mp hx
  obtain ⟨valueType, hvalueType⟩ := Native.isTyped_variant_iff.mp hy
  dsimp only at hentry
  split at hentry
  next => cases hentry
  next hbasic =>
    obtain rfl := Except.ok.inj hentry
    obtain ⟨code, rfl⟩ := hkeyType.exists_code_of_isBasic (by simpa using hbasic)
    exact ⟨_, .entry hkeyType hvalueType⟩

theorem isTyped_of_ofRawBytes {source : TypeSource} (hbuilt : ofRawBytes source x = .ok v) :
    v.IsTyped := by
  unfold ofRawBytes at hbuilt
  obtain ⟨text, -, hbytes⟩ := bind_eq_ok_iff.mp hbuilt
  dsimp only at hbytes
  by_cases htext : text = "ay"
  · rw [if_neg (not_not.mpr htext)] at hbytes
    split at hbytes
    next blob _ =>
      obtain rfl := Except.ok.inj hbytes
      exact ⟨_, .bytes blob⟩
    all_goals cases hbytes
  · rw [if_pos htext] at hbytes
    cases hbytes

theorem isTyped_of_ofMap {entries : List (Native × Native)} (hx : (Native.map entries).IsTyped)
    (hbuilt : ofMap entries = .ok v) : v.IsTyped := by
  unfold ofMap at hbuilt
  obtain ⟨children, hchildren, harray⟩ := bind_eq_ok_iff.mp hbuilt
  obtain ⟨parts, rfl, rfl, hparts⟩ := mapM_eq_ok_iff.mp hchildren
  have htyped : ∀ part ∈ parts, part.2.IsTyped := by
    intro part hpart
    obtain ⟨key, hkey, hrest⟩ := bind_eq_ok_iff.mp (hparts part hpart)
    obtain ⟨content, hcontent, hentry⟩ := bind_eq_ok_iff.mp hrest
    have hvalue : part.1.2.IsTyped := by
      intro w hw
      apply hx w
      apply Native.mem_variantsOfEntries.mpr
      exact ⟨part.1, List.mem_map_of_mem hpart, .inr hw⟩
    obtain ⟨value, -, haccepts, rfl⟩ := ofText_eq_ok_iff.mp hkey
    exact isTyped_of_ofEntry (Native.isTyped_variant_iff.mpr ⟨_, .text haccepts⟩)
      (Native.isTyped_variant_iff.mpr (isTyped_of_ofContent hvalue hcontent)) hentry
  refine isTyped_of_ofArray ?_ ?_ harray
  · intro source hsource
    obtain rfl := Option.some.inj hsource
    trivial
  · intro w hw
    obtain ⟨item, hitem, hw⟩ := Native.mem_variantsAll.mp hw
    obtain ⟨entry, hentry, rfl⟩ := List.mem_map.mp hitem
    obtain ⟨part, hpart, rfl⟩ := List.mem_map.mp hentry
    obtain rfl := List.mem_singleton.mp hw
    exact htyped part hpart

theorem isTyped_of_pack [Codecs] {settings : Settings} {signature : Native} (hx : x.IsTyped)
    (hbuilt : pack settings signature x = .ok v) : v.IsTyped := by
  obtain ⟨text, -, hpacked⟩ := bind_eq_ok_iff.mp hbuilt
  obtain ⟨type, hparse, hpacks⟩ := packText_eq_ok_iff.mp hpacked
  exact ⟨type, hpacks.hasType (Signature.parse_eq_ok_iff.mp hparse).1.wellFormed hx⟩

end Variant

/-- Whatever the constructors are called with, the variants they make are typed. -/
theorem Built.isTyped {v : Variant} (hbuilt : Built v) : v.IsTyped := by
  induction hbuilt with
  | basic hbuilt => exact ⟨_, hasType_ofBasic hbuilt⟩
  | box _ hbuilt ih => exact Variant.isTyped_of_ofContent ih hbuilt
  | maybe hsource _ hbuilt ih => exact Variant.isTyped_of_ofMaybe hsource ih hbuilt
  | array hsource _ hbuilt ih => exact Variant.isTyped_of_ofArray hsource ih hbuilt
  | strings hbuilt => exact Variant.isTyped_of_ofStringVector hbuilt
  | tuple _ hbuilt ih => exact Variant.isTyped_of_ofTuple ih hbuilt
  | entry _ _ hbuilt ihkey ihvalue => exact Variant.isTyped_of_ofEntry ihkey ihvalue hbuilt
  | rawBytes hbuilt => exact Variant.isTyped_of_ofRawBytes hbuilt
  | map _ hbuilt ih => exact Variant.isTyped_of_ofMap ih hbuilt
  | packed _ hbuilt ih => exact Variant.isTyped_of_pack ih hbuilt

end TypedVariant
