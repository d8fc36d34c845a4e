import TypedVariant.Proofs.Codec.Represents
import TypedVariant.Proofs.Pack.Consumption
import TypedVariant.Proofs.Settings.Checked

/-!
# Canonical values

A canonical value of a type is one that deep unpacking may give back: text, bytes
and numbers of exactly the kind that the type describes, lists for the items of
sequences, maps for dictionaries. Each represents a variant of the type, so it
survives being packed and unpacked.
-/

namespace TypedVariant

/-- The canonical values of a type. Any variant is one where a box is wanted; a maybe is either
absent, which a maybe of boxes cannot be, or a canonical value that does not look absent. -/
inductive Canonical : SigType → Native → Prop
  | boolean (value : Bool) : Canonical (.basic .boolean) (.bool value)
  | integer {code : IntegerCode} {value : Int} (hholds : code.Holds value) :
      Canonical (.basic (.integer code)) (.int value)
  | double (value : Double) : Canonical (.basic .double) (.double value)
  | text {code : TextCode} {value : String} (haccepts : code.Accepts value) :
      Canonical (.basic (.text code)) (.text value)
  | variant (content : Variant) : Canonical .variant (.variant content)
  | absent {element : SigType} (htyped : element ≠ .variant) : Canonical (.maybe element) .null
  | present {element : SigType} {x : Native} (hpresent : x ≠ .null)
      (hcontent : Canonical element x) : Canonical (.maybe element) x
  | bytes (blob : List UInt8) : Canonical (.array (.basic (.integer .byte))) (.bytes blob)
  | dictionary {keyType valueType : SigType} {entries : List (Native × Native)}
      (hdistinct : entries.Pairwise (fun earlier later => earlier.1.same later.1 = false))
      (hkeys : ∀ entry ∈ entries, Canonical keyType entry.1)
      (hvalues : ∀ entry ∈ entries, Canonical valueType entry.2) :
      Canonical (.array (.dictEntry keyType valueType)) (.map entries)
  | list {element : SigType} {items : List Native} (hbyte : element ≠ .basic (.integer .byte))
      (hentry : ¬element.IsEntry) (hitems : ∀ item ∈ items, Canonical element item) :
      Canonical (.array element) (.list items)
  | tuple (parts : List (SigType × Native)) (hparts : ∀ part ∈ parts, Canonical part.1 part.2) :
      Canonical (.tuple (parts.map Prod.fst)) (.list (parts.map Prod.snd))
  | dictEntry {keyType valueType : SigType} {keyItem valueItem : Native}
      (hkey : Canonical keyType keyItem) (hvalue : Canonical valueType valueItem) :
      Canonical (.dictEntry keyType valueType) (.list [keyItem, valueItem])

/-- A canonical value represents a variant of its type. -/
theorem Canonical.exists_represents {type : SigType} {x : Native} (hcanonical : Canonical type x) :
    ∃ v, Represents type x v := by
  induction hcanonical with
  | boolean value => exact ⟨_, .boolean value⟩
  | integer hholds => exact ⟨_, .integer hholds⟩
  | double value => exact ⟨_, .double value⟩
  | text haccepts => exact ⟨_, .text haccepts⟩
  | variant content => exact ⟨_, .box content⟩
  | absent htyped => exact ⟨_, .nothing htyped⟩
  | present hpresent _ ih =>
      obtain ⟨content, hcontent⟩ := ih
      exact ⟨_, .just hpresent hcontent⟩
  | bytes blob => exact ⟨_, .bytes blob⟩
  | @dictionary keyType valueType entries hdistinct _ _ ihkeys ihvalues =>
      obtain ⟨parts, rfl, hparts⟩ : ∃ parts : List ((Native × Native) × (Variant × Variant)),
          entries = parts.map Prod.fst ∧ ∀ part ∈ parts,
            Represents keyType part.1.1 part.2.1 ∧ Represents valueType part.1.2 part.2.2 := by
        apply exists_eq_map
        intro entry hentry
        obtain ⟨key, hkey⟩ := ihkeys entry hentry
        obtain ⟨value, hvalue⟩ := ihvalues entry hentry
        exact ⟨(entry, key, value), ⟨hkey, hvalue⟩, rfl⟩
      rw [List.pairwise_map] at hdistinct
      exact ⟨_, .dictionary parts hdistinct (fun part hpart => (hparts part hpart).1)
        (fun part hpart => (hparts part hpart).2)⟩
  | @list element items hbyte hentry _ ih =>
      obtain ⟨parts, rfl, hparts⟩ : ∃ parts : List (Native × Variant),
          items = parts.map Prod.fst ∧ ∀ part ∈ parts, Represents element part.1 part.2 := by
        apply exists_eq_map
        intro item hitem
        obtain ⟨v, hv⟩ := ih item hitem
        exact ⟨(item, v), hv, rfl⟩
      exact ⟨_, .list parts hbyte hentry hparts⟩
  | tuple pairs _ ih =>
      obtain ⟨parts, rfl, hparts⟩ : ∃ parts : List (SigType × Native × Variant),
          pairs = parts.map (fun part => (part.1, part.2.1)) ∧
            ∀ part ∈ parts, Represents part.1 part.2.1 part.2.2 := by
        apply exists_eq_map
        intro pair hpair
        obtain ⟨v, hv⟩ := ih pair hpair
        exact ⟨(pair.1, pair.2, v), hv, rfl⟩
      have htuple := Represents.tuple parts hparts
      rw [List.map_map, List.map_map]
      exact ⟨_, htuple⟩
  | dictEntry _ _ ihkey ihvalue =>
      obtain ⟨key, hkey⟩ := ihkey
      obtain ⟨value, hvalue⟩ := ihvalue
      exact ⟨_, .dictEntry hkey hvalue⟩

/-- Where a value represents a variant at the type of a signature, packing and deep unpacking lead
from each to the other. -/
theorem Represents.pack_unpack [Codecs] {settings : Settings} (hchecked : settings.IsChecked)
    {signature : String} {type : SigType}
    (hparse : Signature.parse settings.maxDepth signature = .ok type) {x : Native} {v : Variant}
    (hrepresents : Represents type x v) :
    pack settings (.text signature) x = .ok v ∧ v.unpack settings .deep = .ok x := by
  constructor
  · exact packText_eq_ok_iff.mpr ⟨type, hparse, hrepresents.packs settings 0⟩
  · have hadmits := (Signature.parse_eq_ok_iff.mp hparse).1
    exact hrepresents.unpacks hchecked.2 (Int.le_refl 0) hadmits

/-- Every canonical value of a type is packed at the type, and deep unpacking restores it. -/
theorem unpacking_restores_canonical [Codecs] {settings : Settings} (hchecked : settings.IsChecked)
    {signature : String} {type : SigType}
    (hparse : Signature.parse settings.maxDepth signature = .ok type) {x : Native}
    (hcanonical : Canonical type x) :
    ∃ v, pack settings (.text signature) x = .ok v ∧ v.unpack settings .deep = .ok x := by
  obtain ⟨v, hrepresents⟩ := hcanonical.exists_represents
  exact ⟨v, hrepresents.pack_unpack hchecked hparse⟩

section

open scoped Standard

/-- A dictionary of boxes and an empty list, of which the first becomes a map again. -/
theorem unpacking_restores_canonical_tuple :
    ∃ type x, ({} : Settings).IsChecked ∧
      Signature.parse ({} : Settings).maxDepth "(a{sv}mai)" = .ok type ∧ Canonical type x ∧
      x = .list [.map [(.text "k", .variant (.boolean true)),
        (.text "l", .variant (.nothing "s"))], .list []] ∧
      ∃ v, pack {} (.text "(a{sv}mai)") x = .ok v ∧ v.unpack {} .deep = .ok x := by
  have hparse : Signature.parse ({} : Settings).maxDepth "(a{sv}mai)" =
      .ok (.tuple [.array (.dictEntry (.basic (.text .string)) .variant),
        .maybe (.array (.basic (.integer .int32)))]) := by rfl
  have hkey : Canonical (.basic (.text .string)) (.text "k") := .text ⟨by decide, rfl⟩
  have hother : Canonical (.basic (.text .string)) (.text "l") := .text ⟨by decide, rfl⟩
  have hmap : Canonical (.array (.dictEntry (.basic (.text .string)) .variant))
      (.map [(.text "k", .variant (.boolean true)), (.text "l", .variant (.nothing "s"))]) :=
    .dictionary (by simp [Native.same, Native.isSameNaN, Native.equal])
      (by simp [hkey, hother]) (by simp [Canonical.variant])
  have hlist : Canonical (.maybe (.array (.basic (.integer .int32)))) (.list []) :=
    .present (by simp) (.list (by simp) (by simp [SigType.IsEntry]) (by simp))
  have hcanonical := Canonical.tuple [(_, _), (_, _)] (by simpa using ⟨hmap, hlist⟩)
  exact ⟨_, _, Settings.isChecked_default, hparse, hcanonical, rfl,
    unpacking_restores_canonical Settings.isChecked_default hparse hcanonical⟩

end

end TypedVariant
