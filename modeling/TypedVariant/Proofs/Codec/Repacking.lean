import TypedVariant.Proofs.Codec.Bare
import TypedVariant.Proofs.Codec.Represents
import TypedVariant.Proofs.Pack.Agreement
import TypedVariant.Proofs.Settings.Checked

/-!
# Packing again what was packed

Packing takes many values for the same variant, and recursive unpacking gives one
value back for all of them, without the boundaries of boxes. This value is packed
as the same variant again: it is of the kind that its type describes, so a box
implies the same type for it, and no two keys of a dictionary fall together that
the packed map kept apart. Only truth values cannot be kept apart as keys.
-/

namespace TypedVariant

namespace Pack

/-- A value that a packed one may be replaced with: the variant is unpacked to it, and it is packed
as the same variant. Where the packed value is present, or implies the type, it does so as well. -/
structure Restores [Codecs] (settings : Settings) (depth : Int) (type : SigType) (x : Native)
    (v : Variant)
    (y : Native) : Prop where
  unpacks : v.unpackAt settings .recursive depth = .ok y
  packs : Packs settings depth type y v
  present : x.isNull = false → y.isNull = false
  implied : x.intrinsicType? = some type → y.intrinsicType? = some type

variable {settings : Settings} {depth : Int} {x y : Native} {v : Variant}

/-! ## Types that are implied -/

/-- The array types that kinds of values imply. -/
theorem element_of_intrinsicType? {element : SigType}
    (htype : x.intrinsicType? = some (.array element)) :
    element = .basic (.integer .byte) ∨ element.IsEntry ∨ element = .variant := by
  cases x with
  | blob _ _ =>
      cases htype
      exact .inl rfl
  | map _ =>
      cases htype
      exact .inr (.inl ⟨_, _, rfl⟩)
  | list _ | tuple _ =>
      cases htype
      exact .inr (.inr rfl)
  | _ => simp [Native.intrinsicType?] at htype

/-- No kind of value implies any other type than a basic type or an array. -/
theorem false_of_intrinsicType? {type : SigType} (hbasic : ∀ code, type ≠ .basic code)
    (harray : ∀ element, type ≠ .array element) (htype : x.intrinsicType? = some type) : False := by
  obtain ⟨code, rfl⟩ | ⟨element, rfl⟩ := basic_or_array_of_intrinsicType? htype
  · exact hbasic code rfl
  · exact harray element rfl

theorem hasNoBooleanKeys_of_intrinsicType? {type : SigType}
    (htype : x.intrinsicType? = some type) : type.HasNoBooleanKeys := by
  cases x with
  | map _ =>
      cases htype
      simp [SigType.HasNoBooleanKeys]
  | bool _ | int _ | double _ | text _ | blob _ _ | list _ | tuple _ =>
      cases htype
      trivial
  | _ => simp [Native.intrinsicType?] at htype

namespace Restores

/-! ## Basic types -/

/-- A variant of a basic type is represented by some value, also if it was packed from another. -/
theorem exists_represents {code : BasicCode} (hbuilt : Variant.ofBasic code x = .ok v) :
    ∃ y, Represents (.basic code) y v := by
  cases code with
  | boolean =>
      obtain rfl := Except.ok.inj hbuilt
      exact ⟨_, .boolean _⟩
  | integer code =>
      obtain ⟨value, hvalue, rfl⟩ := map_eq_ok_iff.mp hbuilt
      exact ⟨_, .integer (Variant.holds_of_asInteger hvalue)⟩
  | double =>
      obtain ⟨value, -, rfl⟩ := map_eq_ok_iff.mp hbuilt
      exact ⟨_, .double value⟩
  | text code =>
      obtain ⟨value, -, haccepts, rfl⟩ := Variant.ofText_eq_ok_iff.mp hbuilt
      exact ⟨_, .text haccepts⟩

/-- The value that represents a variant of a basic type is of the kind that implies this type, if
the packed one was. -/
theorem implied_basic {code : BasicCode} (hbuilt : Variant.ofBasic code x = .ok v)
    (hrepresents : Represents (.basic code) y v) (htype : x.intrinsicType? = some (.basic code)) :
    y.intrinsicType? = some (.basic code) := by
  cases hrepresents with
  | boolean _ | double _ => rfl
  | @integer code value _ =>
      obtain ⟨found, hfound, hv⟩ := map_eq_ok_iff.mp hbuilt
      cases hv
      -- Only an integer implies the type of one, and it is itself the number that is stored.
      cases x with
      | int given =>
          have hnumber := Native.isNumber_of_asInteger hfound
          obtain rfl : value = given := by
            simpa [Native.isNumber, Native.number?, Native.Number.equal] using hnumber
          exact htype
      | _ => simp [Native.intrinsicType?] at htype
  | text _ =>
      obtain ⟨given, rfl, -, -⟩ := Variant.ofText_eq_ok_iff.mp hbuilt
      exact htype

theorem basic [Codecs] {code : BasicCode} (hbuilt : Variant.ofBasic code x = .ok v)
    (hfits : depth ≤ settings.maxDepth) :
    ∃ y, Restores settings depth (.basic code) x v y := by
  obtain ⟨y, hrepresents⟩ := exists_represents hbuilt
  refine ⟨y, hrepresents.unpacks_basic hfits .recursive, hrepresents.packs settings depth, ?_,
    implied_basic hbuilt hrepresents⟩
  intro _
  cases hrepresents <;> rfl

/-! ## Boxes and maybes -/

theorem box [Codecs] {type : SigType} {content : Variant} (htype : x.intrinsicType? = some type)
    (hfits : depth + 1 + type.nesting ≤ settings.maxDepth)
    (hcontent : Restores settings (depth + 1) type x content y) :
    Restores settings depth .variant x (.box content) y where
  unpacks := (Variant.unpackAt_box rfl (by omega) content).trans hcontent.unpacks
  packs := .implied (hcontent.implied htype) hfits hcontent.packs
  present := hcontent.present
  implied h := (false_of_intrinsicType? (by simp) (by simp) h).elim

theorem nothing [Codecs] {element : SigType} (htyped : element ≠ .variant)
    (hfits : depth ≤ settings.maxDepth) :
    Restores settings depth (.maybe element) .null (.nothing element.text) .null where
  unpacks := by
    rw [Variant.unpackAt, Variant.checkDepth_of_le hfits]
    rfl
  packs := .nothing htyped
  present := id
  implied := id

theorem just [Codecs] {element : SigType} {content : Variant} (hpresent : x.isNull = false)
    (hfits : depth ≤ settings.maxDepth)
    (hcontent : Restores settings (depth + 1) element x content y) :
    Restores settings depth (.maybe element) x (.just content) y where
  unpacks := (Variant.unpackAt_just rfl hfits content).trans hcontent.unpacks
  packs := .just (hcontent.present hpresent) hcontent.packs
  present := hcontent.present
  implied h := (false_of_intrinsicType? (by simp) (by simp) h).elim

/-! ## Arrays -/

/-- Strings are unpacked to a list of texts. -/
theorem strings [Codecs] {values : List String}
    (haccepts : ∀ value ∈ values, TextCode.string.Accepts value)
    (hfits : depth + 1 ≤ settings.maxDepth) :
    Restores settings depth (.array (.basic (.text .string))) x
      (.array "s" (values.map (.text .string))) (.list (values.map .text)) := by
  let parts : List (Native × Variant) :=
    values.map (fun value => (.text value, .text .string value))
  have hparts : ∀ part ∈ parts, Represents (.basic (.text .string)) part.1 part.2 := by
    intro part hpart
    obtain ⟨value, hvalue, rfl⟩ := List.mem_map.mp hpart
    exact .text (haccepts value hvalue)
  have hnoEntry : ¬(SigType.basic (.text .string)).IsEntry := by simp [SigType.IsEntry]
  have hunpack := Variant.unpackAt_list rfl hnoEntry (.array (.basic _)) (by decide)
    (show depth ≤ settings.maxDepth by omega)
    (fun part hpart => (hparts part hpart).unpacks_basic hfits .recursive)
  have hpacks := Represents.packs_list parts (by simp) hnoEntry hparts
    (fun part hpart => (hparts part hpart).packs settings (depth + 1))
  rw [List.map_map, List.map_map] at hunpack hpacks
  refine ⟨hunpack, hpacks, fun _ => rfl, fun htype => ?_⟩
  obtain hbyte | hentry | hvariant := element_of_intrinsicType? htype
  · cases hbyte
  · exact absurd hentry hnoEntry
  · cases hvariant

/-- Bytes are unpacked to a block that is held fixed. -/
theorem bytes [Codecs] (blob : List UInt8) (hfits : depth ≤ settings.maxDepth) :
    Restores settings depth (.array (.basic (.integer .byte))) x (.bytes blob) (.bytes blob) where
  unpacks := by
    rw [Variant.unpackAt, Variant.checkDepth_of_le hfits]
    rfl
  packs := .flat rfl
  present _ := rfl
  implied _ := rfl

theorem flat [Codecs] {element : SigType} (hflat : packFlat? settings element x = some (.ok v))
    (hfits : depth + 1 ≤ settings.maxDepth) :
    ∃ y, Restores settings depth (.array element) x v y := by
  unfold packFlat? at hflat
  split at hflat
  next =>
    have hstrings := Option.some.inj hflat
    split at hstrings
    next =>
      obtain ⟨values, -, haccepts, rfl⟩ := Variant.ofStrings_eq_ok_iff.mp hstrings
      exact ⟨_, strings haccepts hfits⟩
    next => simp at hstrings
  next =>
    obtain ⟨blob, -, rfl⟩ := map_eq_ok_iff.mp (Option.some.inj hflat)
    exact ⟨_, bytes blob (by omega)⟩
  next => simp at hflat

theorem packFlat?_eq_none [Codecs] {element : SigType} (hflat : packFlat? settings element x = none)
    (y : Native) : packFlat? settings element y = none := by
  unfold packFlat? at hflat ⊢
  split <;> simp_all

/-- Elements that are restored one by one are restored as a list. -/
theorem list [Codecs] {element : SigType} {simple : Bool}
    (hflat : packFlat? settings element x = none)
    (hentry : ¬element.IsEntry) (hlimit : settings.maxDepth ≤ maxDepthLimit) (hdepth : 0 ≤ depth)
    (hadmits : Signature.Admits ⟨false, settings.maxDepth⟩ depth simple (.array element))
    {parts : List (Native × Variant)}
    (hparts : ∀ part ∈ parts, ∃ y, Restores settings (depth + 1) element part.1 part.2 y) :
    ∃ y, Restores settings depth (.array element) x
      (.array element.text (parts.map Prod.snd)) y := by
  obtain ⟨restored, hvariants, hrestored⟩ : ∃ restored : List (Native × Variant),
      parts.map Prod.snd = restored.map Prod.snd ∧ ∀ part ∈ restored,
        part.2.unpackAt settings .recursive (depth + 1) = .ok part.1 ∧
          Packs settings (depth + 1) element part.1 part.2 := by
    apply exists_eq_map
    intro v hv
    obtain ⟨part, hpart, rfl⟩ := List.mem_map.mp hv
    obtain ⟨y, hy⟩ := hparts part hpart
    exact ⟨(y, part.2), ⟨hy.unpacks, hy.packs⟩, rfl⟩
  rw [hvariants]
  refine ⟨.list (restored.map Prod.fst), ?_, ?_, fun _ => rfl, ?_⟩
  · exact Variant.unpackAt_list rfl hentry hadmits.wellFormed (hadmits.nesting_le hlimit hdepth)
      hadmits.depth_le (fun part hpart => (hrestored part hpart).1)
  · apply Packs.array restored (packFlat?_eq_none hflat _)
    · exact elementsOf_list hentry _
    · exact fun part hpart => (hrestored part hpart).2
  · intro htype
    -- Of the array types that are implied, only that of boxes is packed item by item.
    obtain rfl | hmap | rfl := element_of_intrinsicType? htype
    · simp [packFlat?] at hflat
    · exact absurd hmap hentry
    · rfl

/-! ## Entries and dictionaries -/

theorem dictEntry [Codecs] {keyType valueType : SigType} {keyItem valueItem : Native}
    {key value : Variant}
    (hfits : depth ≤ settings.maxDepth)
    (hkey : ∃ y, Restores settings (depth + 1) keyType keyItem key y)
    (hvalue : ∃ y, Restores settings (depth + 1) valueType valueItem value y) :
    ∃ y, Restores settings depth (.dictEntry keyType valueType) x (.entry key value) y := by
  obtain ⟨keyLeft, hkey⟩ := hkey
  obtain ⟨valueLeft, hvalue⟩ := hvalue
  refine ⟨.list [keyLeft, valueLeft], ?_, .dictEntry rfl hkey.packs hvalue.packs, fun _ => rfl, ?_⟩
  · exact (Variant.unpackAt_entry_eq_ok_iff rfl hfits).mpr
      ⟨_, _, hkey.unpacks, hvalue.unpacks, rfl⟩
  · exact fun htype => (false_of_intrinsicType? (by simp) (by simp) htype).elim

/-- A key and a value to which an entry is unpacked, beside their variants. The key stands for the
same variant as the packed one, and the value is packed as the same variant. -/
structure EntryOf [Codecs] (settings : Settings) (depth : Int) (code : BasicCode)
    (valueType : SigType)
    (packedKey : Native) (part : (Native × Native) × (Variant × Variant)) : Prop where
  packed : Variant.ofBasic code packedKey = .ok part.2.1
  represents : Represents (.basic code) part.1.1 part.2.1
  unpacks : part.2.2.unpackAt settings .recursive depth = .ok part.1.2
  packs : Packs settings depth valueType part.1.2 part.2.2

theorem exists_entryOf [Codecs] {code : BasicCode} {valueType : SigType}
    {keyItem valueItem : Native}
    (hfits : depth ≤ settings.maxDepth)
    (hpacks : Packs settings depth (.dictEntry (.basic code) valueType)
      (.tuple [keyItem, valueItem]) v)
    (hrestores : Restores settings depth (.dictEntry (.basic code) valueType)
      (.tuple [keyItem, valueItem]) v y) :
    ∃ part, EntryOf settings (depth + 1) code valueType keyItem part ∧
      v = .entry part.2.1 part.2.2 := by
  cases hpacks with
  | @dictEntry _ _ _ _ _ _ key value hitems hkey hvalue =>
      cases hitems
      cases hkey with
      | basic _ hbuilt =>
          -- Only the value is taken from the entry; a key is known from its variant alone.
          obtain ⟨keyLeft, hrepresents⟩ := exists_represents hbuilt
          obtain ⟨_, valueLeft, -, hunpack, rfl⟩ :=
            (Variant.unpackAt_entry_eq_ok_iff rfl hfits).mp hrestores.unpacks
          have hrepacks := hrestores.packs
          cases hrepacks with
          | dictEntry hitemsLeft _ hvalueLeft =>
              cases hitemsLeft
              exact ⟨((keyLeft, valueLeft), (key, value)),
                ⟨hbuilt, hrepresents, hunpack, hvalueLeft⟩, rfl⟩

/-- Keys that were kept apart before they were packed are kept apart after they are unpacked. -/
theorem EntryOf.same_eq_false [Codecs] {code : BasicCode} {valueType : SigType} {key other : Native}
    {part next : (Native × Native) × (Variant × Variant)} (hcode : code ≠ .boolean)
    (hpart : EntryOf settings depth code valueType key part)
    (hnext : EntryOf settings depth code valueType other next) (hnumber : key.isNaN = false)
    (hnumberOther : other.isNaN = false) (hdifferent : key.same other = false) :
    part.1.1.same next.1.1 = false := by
  rw [hpart.represents.same_eq_equal hnext.represents, ← Bool.not_eq_true]
  intro hequal
  have hsame := Native.same_of_equal_ofBasic hcode hpart.packed hnext.packed hnumber hnumberOther
    hequal
  rw [hsame] at hdifferent
  cases hdifferent

theorem entryPairs_injective : Function.Injective Native.entryPairs := by
  apply List.map_injective_iff.mpr
  intro entry other hpair
  simpa [Prod.ext_iff] using hpair

/-- The entries of a map are packed and unpacked side by side. -/
theorem exists_entriesOf [Codecs] {code : BasicCode} {valueType : SigType}
    (hfits : depth ≤ settings.maxDepth) {entries : List (Native × Native)}
    {parts : List (Native × Variant)}
    (hpairs : Native.entryPairs entries = parts.map Prod.fst)
    (hpacks : ∀ part ∈ parts,
      Packs settings depth (.dictEntry (.basic code) valueType) part.1 part.2)
    (hparts : ∀ part ∈ parts, ∃ y,
      Restores settings depth (.dictEntry (.basic code) valueType) part.1 part.2 y) :
    ∃ restored : List ((Native × Native) × ((Native × Native) × (Variant × Variant))),
      entries = restored.map Prod.fst ∧
        parts.map Prod.snd =
          (restored.map Prod.snd).map (fun part => .entry part.2.1 part.2.2) ∧
        ∀ part ∈ restored, EntryOf settings (depth + 1) code valueType part.1.1 part.2 := by
  obtain ⟨restored, rfl, hrestored⟩ : ∃ restored :
        List ((Native × Native) × ((Native × Native) × (Variant × Variant))),
      parts = restored.map (fun part =>
          (.tuple [part.1.1, part.1.2], .entry part.2.2.1 part.2.2.2)) ∧
        ∀ part ∈ restored, EntryOf settings (depth + 1) code valueType part.1.1 part.2 := by
    apply exists_eq_map
    intro part hpart
    have hpair : part.1 ∈ Native.entryPairs entries := by
      rw [hpairs]
      exact List.mem_map_of_mem hpart
    obtain ⟨entry, -, hitem⟩ := List.mem_map.mp hpair
    obtain ⟨y, hy⟩ := hparts part hpart
    have hpacked := hpacks part hpart
    rw [← hitem] at hpacked hy
    obtain ⟨left, hleft, hv⟩ := exists_entryOf hfits hpacked hy
    exact ⟨(entry, left), hleft, Prod.ext hitem.symm hv⟩
  refine ⟨restored, ?_, ?_, hrestored⟩
  · apply entryPairs_injective
    rw [hpairs, List.map_map, Native.entryPairs, List.map_map]
    rfl
  · rw [List.map_map, List.map_map]
    rfl

/-- Entries with keys that are kept apart are restored as a map. -/
theorem map [Codecs] {code : BasicCode} {valueType : SigType} {simple : Bool}
    (hlimit : settings.maxDepth ≤ maxDepthLimit) (hdepth : 0 ≤ depth)
    (hadmits : Signature.Admits ⟨false, settings.maxDepth⟩ depth simple
      (.array (.dictEntry (.basic code) valueType)))
    {entries : List (Native × Native)} {parts : List ((Native × Native) × (Variant × Variant))}
    (hparts : ∀ part ∈ parts, ∃ key,
      EntryOf settings (depth + 1 + 1) code valueType key part)
    (hapart : parts.Pairwise (fun earlier later => earlier.1.1.same later.1.1 = false)) :
    Restores settings depth (.array (.dictEntry (.basic code) valueType)) (.map entries)
      (.array (SigType.dictEntry (.basic code) valueType).text
        (parts.map (fun part => .entry part.2.1 part.2.2))) (.map (parts.map Prod.fst)) := by
  obtain ⟨-, hentry⟩ := Signature.admits_array_iff.mp hadmits
  obtain ⟨-, hkeyAdmits, -⟩ := Signature.admits_dictEntry_iff.mp hentry
  refine ⟨?_, ?_, fun _ => rfl, id⟩
  · apply Variant.unpackAt_dictionary rfl hadmits.wellFormed (hadmits.nesting_le hlimit hdepth)
      hentry.depth_le _ _ hapart
    · intro part hpart
      obtain ⟨key, hpart⟩ := hparts part hpart
      exact hpart.represents.unpacks_basic hkeyAdmits.depth_le .recursive
    · intro part hpart
      obtain ⟨key, hpart⟩ := hparts part hpart
      exact hpart.unpacks
  · apply Represents.packs_dictionary
    · intro part hpart
      obtain ⟨key, hpart⟩ := hparts part hpart
      exact hpart.represents.packs settings _
    · intro part hpart
      obtain ⟨key, hpart⟩ := hparts part hpart
      exact hpart.packs

/-- The entries of a bare map are restored as a map. -/
theorem dictionary [Codecs] {code : BasicCode} {valueType : SigType} (hcode : code ≠ .boolean)
    (hbare : x.IsBare) (hlimit : settings.maxDepth ≤ maxDepthLimit) (hdepth : 0 ≤ depth)
    {simple : Bool} (hadmits : Signature.Admits ⟨false, settings.maxDepth⟩ depth simple
      (.array (.dictEntry (.basic code) valueType)))
    {parts : List (Native × Variant)}
    (helements : elementsOf (.dictEntry (.basic code) valueType) x = .ok (parts.map Prod.fst))
    (hpacks : ∀ part ∈ parts,
      Packs settings (depth + 1) (.dictEntry (.basic code) valueType) part.1 part.2)
    (hparts : ∀ part ∈ parts, ∃ y,
      Restores settings (depth + 1) (.dictEntry (.basic code) valueType) part.1 part.2 y) :
    ∃ y, Restores settings depth (.array (.dictEntry (.basic code) valueType)) x
      (.array (SigType.dictEntry (.basic code) valueType).text (parts.map Prod.snd)) y := by
  obtain ⟨entries, rfl, hpairs⟩ : ∃ entries, x = .map entries ∧
      Native.entryPairs entries = parts.map Prod.fst := by
    cases x with
    | map entries => exact ⟨entries, rfl, Except.ok.inj helements⟩
    | _ => simp [elementsOf] at helements
  obtain ⟨-, hentry⟩ := Signature.admits_array_iff.mp hadmits
  obtain ⟨restored, rfl, hvariants, hrestored⟩ :=
    exists_entriesOf hentry.depth_le hpairs hpacks hparts
  obtain ⟨hdistinct, hbare⟩ := hbare
  rw [Native.areBareEntries_iff] at hbare
  have hnumber : ∀ part ∈ restored, part.1.1.isNaN = false := fun part hpart =>
    (hbare part.1 (List.mem_map_of_mem hpart)).1
  have hapart : (restored.map Prod.snd).Pairwise (fun earlier later =>
      earlier.1.1.same later.1.1 = false) := by
    rw [List.pairwise_map] at hdistinct ⊢
    apply hdistinct.imp_of_mem
    intro earlier later hearlier hlater
    exact (hrestored earlier hearlier).same_eq_false hcode (hrestored later hlater)
      (hnumber earlier hearlier) (hnumber later hlater)
  have hentries : ∀ part ∈ restored.map Prod.snd, ∃ key,
      EntryOf settings (depth + 1 + 1) code valueType key part := by
    intro part hpart
    obtain ⟨whole, hwhole, rfl⟩ := List.mem_map.mp hpart
    exact ⟨_, hrestored whole hwhole⟩
  rw [hvariants]
  exact ⟨_, map hlimit hdepth hadmits hentries hapart⟩

/-- The members of a tuple are restored as a list. -/
theorem tuple [Codecs] {parts : List (SigType × Native × Variant)}
    (hfits : depth ≤ settings.maxDepth)
    (hparts : ∀ part ∈ parts, ∃ y, Restores settings (depth + 1) part.1 part.2.1 part.2.2 y) :
    ∃ y, Restores settings depth (.tuple (parts.map Prod.fst)) x
      (.tuple (parts.map (·.2.2))) y := by
  obtain ⟨restored, hpairs, hrestored⟩ : ∃ restored : List (SigType × Native × Variant),
      parts.map (fun part => (part.1, part.2.2)) =
          restored.map (fun part => (part.1, part.2.2)) ∧
        ∀ part ∈ restored, part.2.2.unpackAt settings .recursive (depth + 1) = .ok part.2.1 ∧
          Packs settings (depth + 1) part.1 part.2.1 part.2.2 := by
    apply exists_eq_map
    intro pair hpair
    obtain ⟨part, hpart, rfl⟩ := List.mem_map.mp hpair
    obtain ⟨y, hy⟩ := hparts part hpart
    exact ⟨(part.1, y, part.2.2), ⟨hy.unpacks, hy.packs⟩, rfl⟩
  have htypes : parts.map Prod.fst = restored.map Prod.fst := by
    simpa [Function.comp_def] using congrArg (List.map Prod.fst) hpairs
  have hvariants : parts.map (·.2.2) = restored.map (·.2.2) := by
    simpa [Function.comp_def] using congrArg (List.map Prod.snd) hpairs
  rw [htypes, hvariants]
  refine ⟨.list (restored.map (·.2.1)), ?_,
    .tuple restored rfl (fun part hpart => (hrestored part hpart).2), fun _ => rfl,
    fun htype => (false_of_intrinsicType? (by simp) (by simp) htype).elim⟩
  have hitems : ∀ pair ∈ restored.map Prod.snd,
      pair.2.unpackAt settings .recursive (depth + 1) = .ok pair.1 := by
    intro pair hpair
    obtain ⟨part, hpart, rfl⟩ := List.mem_map.mp hpair
    exact (hrestored part hpart).1
  have htuple := Variant.unpackAt_tuple rfl hfits hitems
  rwa [List.map_map, List.map_map] at htuple

end Restores

/-- What is packed without variants at a type without truth values for keys can be restored. -/
theorem Packs.exists_restores [Codecs] {type : SigType} (hpacks : Packs settings depth type x v)
    (hlimit : settings.maxDepth ≤ maxDepthLimit) (hdepth : 0 ≤ depth) {simple : Bool}
    (hadmits : Signature.Admits ⟨false, settings.maxDepth⟩ depth simple type)
    (hkeys : type.HasNoBooleanKeys) (hbare : x.IsBare) :
    ∃ y, Restores settings depth type x v y := by
  induction hpacks generalizing simple with
  | basic _ hbuilt => exact Restores.basic hbuilt hadmits.depth_le
  | boxed _ => exact hbare.elim
  | @implied d type x content htype hfits _ ih =>
      have himplied : Signature.Admits ⟨false, settings.maxDepth⟩ (d + 1) false type :=
        ⟨wellFormed_of_intrinsicType? htype, hfits, by simp⟩
      obtain ⟨y, hcontent⟩ :=
        ih (by omega) himplied (hasNoBooleanKeys_of_intrinsicType? htype) hbare
      exact ⟨y, .box htype hfits hcontent⟩
  | nothing htyped => exact ⟨_, .nothing htyped hadmits.depth_le⟩
  | just hpresent _ ih =>
      obtain ⟨-, helement⟩ := Signature.admits_maybe_iff.mp hadmits
      obtain ⟨y, hcontent⟩ := ih (by omega) helement hkeys hbare
      exact ⟨y, .just hpresent hadmits.depth_le hcontent⟩
  | flat hflat =>
      obtain ⟨-, helement⟩ := Signature.admits_array_iff.mp hadmits
      exact Restores.flat hflat helement.depth_le
  | @array d element x parts hflat helements hpacks ih =>
      obtain ⟨-, helement⟩ := Signature.admits_array_iff.mp hadmits
      have hitems := Native.handedDown_isBare.elementsOf hbare helements
      have hparts : ∀ part ∈ parts, ∃ y, Restores settings (d + 1) element part.1 part.2 y :=
        fun part hpart => ih part hpart (by omega) helement hkeys
          (hitems _ (List.mem_map_of_mem hpart))
      by_cases hentry : element.IsEntry
      · obtain ⟨keyType, valueType, rfl⟩ := hentry
        cases helement.wellFormed with
        | dictEntry hbasic hkey _ =>
            obtain ⟨code, rfl⟩ := hkey.exists_code_of_isBasic hbasic
            have hcode : code ≠ .boolean := by simpa using hkeys.1
            exact Restores.dictionary hcode hbare hlimit hdepth hadmits helements hpacks hparts
      · exact Restores.list hflat hentry hlimit hdepth hadmits hparts
  | tuple parts hitems _ ih =>
      obtain ⟨-, hfits, hmembers⟩ := Signature.admits_tuple_iff.mp hadmits
      have hkeys := SigType.haveNoBooleanKeys_iff.mp hkeys
      have hitems := Native.handedDown_isBare.sequence? hbare hitems
      exact Restores.tuple hfits (fun part hpart => ih part hpart (by omega)
        (hmembers _ (List.mem_map_of_mem hpart)) (hkeys _ (List.mem_map_of_mem hpart))
        (hitems _ (List.mem_map_of_mem hpart)))
  | dictEntry hitems _ _ ihkey ihvalue =>
      obtain ⟨-, hkey, hvalue⟩ := Signature.admits_dictEntry_iff.mp hadmits
      have hitems := Native.handedDown_isBare.sequence? hbare hitems
      exact Restores.dictEntry hadmits.depth_le
        (ihkey (by omega) hkey hkeys.2.1 (hitems _ (by simp)))
        (ihvalue (by omega) hvalue hkeys.2.2 (hitems _ (by simp)))

end Pack

/-- Packing a bare value and unpacking the variant recursively gives a value that is packed as the
same variant, at any type without truth values for keys. -/
theorem repacking_restores_packed [Codecs] {settings : Settings} (hchecked : settings.IsChecked)
    {signature : String} {type : SigType}
    (hparse : Signature.parse settings.maxDepth signature = .ok type)
    (hkeys : type.HasNoBooleanKeys) {x : Native} (hbare : x.IsBare) {v : Variant}
    (hpack : pack settings (.text signature) x = .ok v) :
    ∃ y, v.unpack settings .recursive = .ok y ∧ pack settings (.text signature) y = .ok v := by
  obtain ⟨packed, hpacked, hpacks⟩ := packText_eq_ok_iff.mp hpack
  obtain rfl := Except.ok.inj (hparse.symm.trans hpacked)
  have hadmits := (Signature.parse_eq_ok_iff.mp hparse).1
  obtain ⟨y, hrestores⟩ :=
    hpacks.exists_restores hchecked.2 (Int.le_refl 0) hadmits hkeys hbare
  exact ⟨y, hrestores.unpacks, packText_eq_ok_iff.mpr ⟨type, hparse, hrestores.packs⟩⟩

section

open scoped Standard

/-- A map with a truth value among integers for its keys, and a tuple of bytes beside a view. -/
theorem repacking_restores_packed_dictionary :
    ∃ type x v, ({} : Settings).IsChecked ∧
      Signature.parse ({} : Settings).maxDepth "a{iay}" = .ok type ∧ type.HasNoBooleanKeys ∧
      x = .map [(.bool true, .tuple [.int 7]), (.int 2, .blob .view [])] ∧ x.IsBare ∧
      pack {} (.text "a{iay}") x = .ok v ∧
      ∃ y, v.unpack {} .recursive = .ok y ∧ pack {} (.text "a{iay}") y = .ok v := by
  have hparse : Signature.parse ({} : Settings).maxDepth "a{iay}" =
      .ok (.array (.dictEntry (.basic (.integer .int32)) (.array (.basic (.integer .byte))))) := by
    rfl
  have hkeys : (SigType.array (.dictEntry (.basic (.integer .int32))
      (.array (.basic (.integer .byte))))).HasNoBooleanKeys := by
    simp [SigType.HasNoBooleanKeys]
  have hbare : Native.IsBare (.map [(.bool true, .tuple [.int 7]), (.int 2, .blob .view [])]) := by
    simp [Native.IsBare, Native.AreBare, Native.AreBareEntries, Native.isNaN, Native.same,
      Native.isSameNaN, Native.equal, Native.number?, Native.Number.equal]
  have hfirst : Pack.Packs {} 1 (.dictEntry (.basic (.integer .int32))
      (.array (.basic (.integer .byte)))) (.tuple [.bool true, .tuple [.int 7]])
      (.entry (.integer .int32 1) (.bytes [7])) :=
    .dictEntry rfl (.basic rfl rfl) (.flat rfl)
  have hsecond : Pack.Packs {} 1 (.dictEntry (.basic (.integer .int32))
      (.array (.basic (.integer .byte)))) (.tuple [.int 2, .blob .view []])
      (.entry (.integer .int32 2) (.bytes [])) :=
    .dictEntry rfl (.basic rfl rfl) (.flat rfl)
  have hpacks : Pack.Packs {} 0 (.array (.dictEntry (.basic (.integer .int32))
      (.array (.basic (.integer .byte))))) (.map [(.bool true, .tuple [.int 7]),
        (.int 2, .blob .view [])]) (.array "{iay}" [.entry (.integer .int32 1) (.bytes [7]),
          .entry (.integer .int32 2) (.bytes [])]) :=
    .array [(_, _), (_, _)] rfl rfl (by simpa using ⟨hfirst, hsecond⟩)
  have hpack := packText_eq_ok_iff.mpr ⟨_, hparse, hpacks⟩
  exact ⟨_, _, _, Settings.isChecked_default, hparse, hkeys, rfl, hbare, hpack,
    repacking_restores_packed Settings.isChecked_default hparse hkeys hbare hpack⟩

end

end TypedVariant
