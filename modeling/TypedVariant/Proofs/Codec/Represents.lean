import TypedVariant.Proofs.Pack.Derivation
import TypedVariant.Proofs.Unpack.Step

/-!
# The values that variants stand for

A native value represents a variant at a type if packing and deep unpacking lead
from each to the other. The relation has one case for each way in which a variant
of a type may be built up, and both directions are proved along it. Packing goes
by the type alone, while unpacking goes by the variant, so it also asks for the
type to nest within the greatest depth, as it does wherever settings are checked.
-/

namespace TypedVariant

theorem Native.isNull_eq_false {x : Native} (hpresent : x ≠ .null) : x.isNull = false := by
  cases x <;> first | rfl | exact absurd rfl hpresent

/-- Elements that are not entries are the items of a list. -/
theorem Pack.elementsOf_list {element : SigType} (hentry : ¬element.IsEntry)
    (items : List Native) : elementsOf element (.list items) = .ok items := by
  unfold elementsOf
  split
  next keyType valueType => exact absurd ⟨keyType, valueType, rfl⟩ hentry
  next => rfl

/-- A native value represents a variant at a type. The content of a box is the variant itself,
whatever its type. The entries of a dictionary are a map, and no two of its keys are the same. -/
inductive Represents : SigType → Native → Variant → Prop
  | boolean (value : Bool) : Represents (.basic .boolean) (.bool value) (.boolean value)
  | integer {code : IntegerCode} {value : Int} (hholds : code.Holds value) :
      Represents (.basic (.integer code)) (.int value) (.integer code value)
  | double (value : Double) : Represents (.basic .double) (.double value) (.double value)
  | text {code : TextCode} {value : String} (haccepts : code.Accepts value) :
      Represents (.basic (.text code)) (.text value) (.text code value)
  | box (content : Variant) : Represents .variant (.variant content) (.box content)
  | nothing {element : SigType} (htyped : element ≠ .variant) :
      Represents (.maybe element) .null (.nothing element.text)
  | just {element : SigType} {x : Native} {content : Variant} (hpresent : x ≠ .null)
      (hcontent : Represents element x content) : Represents (.maybe element) x (.just content)
  | bytes (blob : List UInt8) :
      Represents (.array (.basic (.integer .byte))) (.bytes blob) (.bytes blob)
  | dictionary {keyType valueType : SigType}
      (parts : List ((Native × Native) × (Variant × Variant)))
      (hdistinct : parts.Pairwise (fun earlier later => earlier.1.1.same later.1.1 = false))
      (hkeys : ∀ part ∈ parts, Represents keyType part.1.1 part.2.1)
      (hvalues : ∀ part ∈ parts, Represents valueType part.1.2 part.2.2) :
      Represents (.array (.dictEntry keyType valueType)) (.map (parts.map Prod.fst))
        (.array (SigType.dictEntry keyType valueType).text
          (parts.map (fun part => .entry part.2.1 part.2.2)))
  | list {element : SigType} (parts : List (Native × Variant))
      (hbyte : element ≠ .basic (.integer .byte)) (hentry : ¬element.IsEntry)
      (hparts : ∀ part ∈ parts, Represents element part.1 part.2) :
      Represents (.array element) (.list (parts.map Prod.fst))
        (.array element.text (parts.map Prod.snd))
  | tuple (parts : List (SigType × Native × Variant))
      (hparts : ∀ part ∈ parts, Represents part.1 part.2.1 part.2.2) :
      Represents (.tuple (parts.map Prod.fst)) (.list (parts.map (·.2.1)))
        (.tuple (parts.map (·.2.2)))
  | dictEntry {keyType valueType : SigType} {keyItem valueItem : Native} {key value : Variant}
      (hkey : Represents keyType keyItem key) (hvalue : Represents valueType valueItem value) :
      Represents (.dictEntry keyType valueType) (.list [keyItem, valueItem]) (.entry key value)

namespace Represents

variable {settings : Settings} {type element : SigType} {x : Native} {v : Variant}

/-- Strings are packed as a whole, which comes to the same as packing each of them. -/
theorem packs_strings (parts : List (Native × Variant))
    (hparts : ∀ part ∈ parts, Represents (.basic (.text .string)) part.1 part.2) :
    Variant.ofStrings (parts.map Prod.fst) = .ok (.array "s" (parts.map Prod.snd)) := by
  obtain ⟨values, rfl, hvalues⟩ : ∃ values : List String,
      parts = values.map (fun value => (Native.text value, Variant.text .string value)) ∧
        ∀ value ∈ values, TextCode.string.Accepts value := by
    apply exists_eq_map
    intro part hpart
    obtain ⟨item, content⟩ := part
    cases hparts _ hpart with
    | text haccepts => exact ⟨_, haccepts, rfl⟩
  rw [Variant.ofStrings_eq_ok_iff]
  exact ⟨values, by simp, hvalues, by simp⟩

/-- Elements other than bytes are packed one by one or, if they are strings, all at once. -/
theorem packs_list [Codecs] {depth : Int} (parts : List (Native × Variant))
    (hbyte : element ≠ .basic (.integer .byte)) (hentry : ¬element.IsEntry)
    (hrepresents : ∀ part ∈ parts, Represents element part.1 part.2)
    (hpacks : ∀ part ∈ parts, Pack.Packs settings (depth + 1) element part.1 part.2) :
    Pack.Packs settings depth (.array element) (.list (parts.map Prod.fst))
      (.array element.text (parts.map Prod.snd)) := by
  -- Strings have a way of their own, on which nothing but text is accepted either.
  by_cases hstring : element = .basic (.text .string)
  · subst hstring
    apply Pack.Packs.flat
    rw [Pack.packFlat?]
    exact congrArg some (packs_strings parts hrepresents)
  · apply Pack.Packs.array parts _ _ hpacks
    · unfold Pack.packFlat?
      split
      next => exact absurd rfl hstring
      next => exact absurd rfl hbyte
      next => rfl
    · exact Pack.elementsOf_list hentry _

/-- The entries of a map are packed as pairs. -/
theorem packs_dictionary [Codecs] {depth : Int} {keyType valueType : SigType}
    (parts : List ((Native × Native) × (Variant × Variant)))
    (hkeys : ∀ part ∈ parts, Pack.Packs settings (depth + 1 + 1) keyType part.1.1 part.2.1)
    (hvalues : ∀ part ∈ parts,
      Pack.Packs settings (depth + 1 + 1) valueType part.1.2 part.2.2) :
    Pack.Packs settings depth (.array (.dictEntry keyType valueType)) (.map (parts.map Prod.fst))
      (.array (SigType.dictEntry keyType valueType).text
        (parts.map (fun part => .entry part.2.1 part.2.2))) := by
  let pairs : List (Native × Variant) :=
    parts.map (fun part => (.tuple [part.1.1, part.1.2], .entry part.2.1 part.2.2))
  have helements : Pack.elementsOf (.dictEntry keyType valueType) (.map (parts.map Prod.fst)) =
      .ok (pairs.map Prod.fst) := by
    simp [Pack.elementsOf, Native.entryPairs, pairs]
  have hpairs : ∀ pair ∈ pairs,
      Pack.Packs settings (depth + 1) (.dictEntry keyType valueType) pair.1 pair.2 := by
    intro pair hpair
    obtain ⟨part, hpart, rfl⟩ := List.mem_map.mp hpair
    exact .dictEntry rfl (hkeys part hpart) (hvalues part hpart)
  have hpacks := Pack.Packs.array pairs rfl helements hpairs
  rwa [List.map_map] at hpacks

/-- A value is packed, at any depth, as the variant that it represents. -/
theorem packs [Codecs] (hrepresents : Represents type x v) (settings : Settings) (depth : Int) :
    Pack.Packs settings depth type x v := by
  induction hrepresents generalizing depth with
  | boolean value => exact .basic rfl rfl
  | integer hholds =>
      apply Pack.Packs.basic rfl
      rw [Variant.ofBasic, Variant.ofInteger, Variant.asInteger_int hholds]
      rfl
  | double value => exact .basic rfl rfl
  | text haccepts => exact .basic rfl (Variant.ofText_eq_ok_iff.mpr ⟨_, rfl, haccepts, rfl⟩)
  | box content => exact .boxed content
  | nothing htyped => exact .nothing htyped
  | just hpresent _ ih => exact .just (Native.isNull_eq_false hpresent) (ih _)
  | bytes blob => exact .flat rfl
  | dictionary parts _ _ _ ihkeys ihvalues =>
      exact packs_dictionary parts (fun part hpart => ihkeys part hpart _)
        (fun part hpart => ihvalues part hpart _)
  | list parts hbyte hentry hparts ih =>
      exact packs_list parts hbyte hentry hparts (fun part hpart => ih part hpart _)
  | tuple parts _ ih => exact .tuple parts rfl (fun part hpart => ih part hpart _)
  | dictEntry _ _ ihkey ihvalue => exact .dictEntry rfl (ihkey _) (ihvalue _)

/-- Values of one basic type are the same as keys exactly when their variants are equal. -/
theorem same_eq_equal {code : BasicCode} {x y : Native} {v w : Variant}
    (hx : Represents (.basic code) x v) (hy : Represents (.basic code) y w) :
    x.same y = v.equal w := by
  cases hx with
  | boolean a =>
      cases hy with
      | boolean b => cases a <;> cases b <;> rfl
  | integer _ =>
      cases hy with
      | integer _ =>
          simp [Native.same, Native.isSameNaN, Native.equal, Native.number?, Native.Number.equal,
            Variant.equal]
  | double a =>
      cases hy with
      | double b =>
          simp [Native.same, Native.isSameNaN, Native.equal, Native.number?, Native.Number.equal,
            Variant.equal, Double.same]
  | text _ =>
      cases hy with
      | text _ => simp [Native.same, Native.isSameNaN, Native.equal, Variant.equal]

/-! ## Unpacking -/

open Signature (Admits)

variable {depth : Int} {simple : Bool}

/-- A variant of a basic type has nothing to open. -/
theorem unpacks_basic {code : BasicCode} (hrepresents : Represents (.basic code) x v)
    (hfits : depth ≤ settings.maxDepth) (opening : Opening) :
    v.unpackAt settings opening depth = .ok x := by
  cases hrepresents with
  | boolean _ | integer _ | double _ | text _ =>
      rw [Variant.unpackAt, Variant.checkDepth_of_le hfits]
      rfl

/-- A variant that lies within the limit unpacks to the value that represents it. -/
theorem unpacks (hrepresents : Represents type x v) (hlimit : settings.maxDepth ≤ maxDepthLimit)
    (hdepth : 0 ≤ depth) (hadmits : Admits ⟨false, settings.maxDepth⟩ depth simple type) :
    v.unpackAt settings .deep depth = .ok x := by
  -- A key is admitted at a place of basic types only, and other parts anywhere.
  induction hrepresents generalizing depth simple with
  | boolean value => exact (boolean value).unpacks_basic hadmits.depth_le _
  | integer hholds => exact (integer hholds).unpacks_basic hadmits.depth_le _
  | double value => exact (double value).unpacks_basic hadmits.depth_le _
  | text haccepts => exact (text haccepts).unpacks_basic hadmits.depth_le _
  | box _ | bytes _ | nothing _ =>
      rw [Variant.unpackAt, Variant.checkDepth_of_le hadmits.depth_le]
      rfl
  | just hpresent _ ih =>
      obtain ⟨-, helement⟩ := Signature.admits_maybe_iff.mp hadmits
      exact (Variant.unpackAt_just rfl hadmits.depth_le _).trans (ih (by omega) helement)
  | dictionary parts hdistinct _ _ ihkeys ihvalues =>
      obtain ⟨-, hentry⟩ := Signature.admits_array_iff.mp hadmits
      obtain ⟨-, hkey, hvalue⟩ := Signature.admits_dictEntry_iff.mp hentry
      exact Variant.unpackAt_dictionary rfl hadmits.wellFormed (hadmits.nesting_le hlimit hdepth)
        hentry.depth_le
        (fun part hpart => ihkeys part hpart (by omega) hkey)
        (fun part hpart => ihvalues part hpart (by omega) hvalue) hdistinct
  | list parts _ hentry _ ih =>
      obtain ⟨-, helement⟩ := Signature.admits_array_iff.mp hadmits
      exact Variant.unpackAt_list rfl hentry hadmits.wellFormed
        (hadmits.nesting_le hlimit hdepth) hadmits.depth_le
        (fun part hpart => ih part hpart (by omega) helement)
  | tuple parts _ ih =>
      obtain ⟨-, -, hmembers⟩ := Signature.admits_tuple_iff.mp hadmits
      have hitems : ∀ pair ∈ parts.map Prod.snd,
          pair.2.unpackAt settings .deep (depth + 1) = .ok pair.1 := by
        intro pair hpair
        obtain ⟨part, hpart, rfl⟩ := List.mem_map.mp hpair
        exact ih part hpart (by omega) (hmembers _ (List.mem_map_of_mem hpart))
      have htuple := Variant.unpackAt_tuple rfl hadmits.depth_le hitems
      rwa [List.map_map, List.map_map] at htuple
  | dictEntry _ _ ihkey ihvalue =>
      obtain ⟨-, hkey, hvalue⟩ := Signature.admits_dictEntry_iff.mp hadmits
      exact (Variant.unpackAt_entry_eq_ok_iff rfl hadmits.depth_le).mpr
        ⟨_, _, ihkey (by omega) hkey, ihvalue (by omega) hvalue, rfl⟩

end Represents

end TypedVariant
