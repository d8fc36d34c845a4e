import TypedVariant.Proofs.Codec.Canonical
import TypedVariant.Proofs.Variant.Built

/-!
# Faithful variants

Deep unpacking forgets three things: how often an absent maybe is wrapped, the
element type of an absent maybe of boxes, which packing refuses to guess, and all
but one of the entries that have the same key. A variant without them represents
a native value, so it survives being unpacked and packed again. What is inside
boxes does not matter, since it is not unpacked.
-/

namespace TypedVariant

namespace Variant

/-- Whether a variant is a maybe without content. -/
def isAbsent : Variant → Bool
  | nothing _ => true
  | _ => false

/-- The key of a dictionary entry. -/
def key? : Variant → Option Variant
  | entry key _ => some key
  | _ => none

mutual

/-- Outside of boxes no maybe holds an absent one, none is absent where a box is wanted, and no two
keys of a dictionary are equal. Keys that are no numbers equal only themselves. -/
def IsFaithful : Variant → Prop
  | just content => content.isAbsent = false ∧ content.IsFaithful
  | nothing element => element ≠ "v"
  | array _ items =>
      (items.filterMap key?).Pairwise (fun earlier later => earlier.equal later = false) ∧
        AreFaithful items
  | tuple members => AreFaithful members
  | entry key value => key.IsFaithful ∧ value.IsFaithful
  | boolean _ | integer _ _ | double _ | text _ _ | box _ | foreignBox _ | bytes _
  | unknown _ _ => True
termination_by structural v => v

/-- Whether all variants of a list are faithful. -/
def AreFaithful : List Variant → Prop
  | [] => True
  | v :: rest => v.IsFaithful ∧ AreFaithful rest
termination_by structural items => items

end

theorem areFaithful_iff {items : List Variant} :
    AreFaithful items ↔ ∀ v ∈ items, v.IsFaithful := by
  induction items with
  | nil => simp [AreFaithful]
  | cons v rest ih => simp [AreFaithful, ih]

end Variant

namespace Represents

/-- Only an absent maybe unpacks to nothing. -/
theorem isAbsent_of_null {type : SigType} {v : Variant} (hrepresents : Represents type .null v) :
    v.isAbsent = true := by
  cases hrepresents with
  | nothing => rfl
  | just hpresent _ => exact absurd rfl hpresent

/-- Faithful entries of a dictionary are represented by a map. -/
theorem exists_dictionary {code : BasicCode} {valueType : SigType} {items : List Variant}
    (hdistinct : (items.filterMap Variant.key?).Pairwise
      (fun earlier later => earlier.equal later = false))
    (hitems : ∀ item ∈ items, ∃ x, Represents (.dictEntry (.basic code) valueType) x item) :
    ∃ x, Represents (.array (.dictEntry (.basic code) valueType)) x
      (.array (SigType.dictEntry (.basic code) valueType).text items) := by
  obtain ⟨parts, rfl, hparts⟩ : ∃ parts : List ((Native × Native) × (Variant × Variant)),
      items = parts.map (fun part => .entry part.2.1 part.2.2) ∧ ∀ part ∈ parts,
        Represents (.basic code) part.1.1 part.2.1 ∧ Represents valueType part.1.2 part.2.2 := by
    apply exists_eq_map
    intro item hitem
    obtain ⟨x, hx⟩ := hitems item hitem
    cases hx with
    | @dictEntry _ _ keyItem valueItem key value hkey hvalue =>
        exact ⟨((keyItem, valueItem), (key, value)), ⟨hkey, hvalue⟩, rfl⟩
  have hkeys : (parts.map (fun part => Variant.entry part.2.1 part.2.2)).filterMap Variant.key? =
      parts.map (·.2.1) := by
    simp [List.filterMap_map, Function.comp_def, Variant.key?]
  rw [hkeys, List.pairwise_map] at hdistinct
  refine ⟨_, .dictionary parts ?_ (fun part hpart => (hparts part hpart).1)
    (fun part hpart => (hparts part hpart).2)⟩
  apply hdistinct.imp_of_mem
  intro earlier later hearlier hlater hunequal
  rw [same_eq_equal (hparts earlier hearlier).1 (hparts later hlater).1, hunequal]

/-- Items that are represented make an array that is represented by a list. -/
theorem exists_list {element : SigType} {items : List Variant}
    (hbyte : element ≠ .basic (.integer .byte)) (hentry : ¬element.IsEntry)
    (hitems : ∀ item ∈ items, ∃ x, Represents element x item) :
    ∃ x, Represents (.array element) x (.array element.text items) := by
  obtain ⟨parts, rfl, hparts⟩ : ∃ parts : List (Native × Variant),
      items = parts.map Prod.snd ∧ ∀ part ∈ parts, Represents element part.1 part.2 := by
    apply exists_eq_map
    intro item hitem
    obtain ⟨x, hx⟩ := hitems item hitem
    exact ⟨(x, item), hx, rfl⟩
  exact ⟨_, .list parts hbyte hentry hparts⟩

/-- Members that are represented make a tuple that is. -/
theorem exists_tuple {pairs : List (Variant × SigType)}
    (hmembers : ∀ pair ∈ pairs, ∃ x, Represents pair.2 x pair.1) :
    ∃ x, Represents (.tuple (pairs.map Prod.snd)) x (.tuple (pairs.map Prod.fst)) := by
  obtain ⟨parts, rfl, hparts⟩ : ∃ parts : List (SigType × Native × Variant),
      pairs = parts.map (fun part => (part.2.2, part.1)) ∧
        ∀ part ∈ parts, Represents part.1 part.2.1 part.2.2 := by
    apply exists_eq_map
    intro pair hpair
    obtain ⟨x, hx⟩ := hmembers pair hpair
    exact ⟨(pair.2, x, pair.1), hx, rfl⟩
  rw [List.map_map, List.map_map]
  exact ⟨_, .tuple parts hparts⟩

end Represents

/-- A faithful variant of a type is represented by a value. -/
theorem HasType.exists_represents {v : Variant} {type : SigType} (htyped : HasType v type)
    (hfaithful : v.IsFaithful) : ∃ x, Represents type x v := by
  induction htyped with
  | boolean value => exact ⟨_, .boolean value⟩
  | integer hholds => exact ⟨_, .integer hholds⟩
  | double value => exact ⟨_, .double value⟩
  | text haccepts => exact ⟨_, .text haccepts⟩
  | box => exact ⟨_, .box _⟩
  | nothing =>
      refine ⟨_, .nothing ?_⟩
      rintro rfl
      exact hfaithful rfl
  | just _ ih =>
      obtain ⟨hpresent, hcontent⟩ := hfaithful
      obtain ⟨x, hx⟩ := ih hcontent
      -- A content that unpacked to nothing would be packed as an absent maybe.
      refine ⟨x, .just ?_ hx⟩
      rintro rfl
      simp [hx.isAbsent_of_null] at hpresent
  | bytes blob => exact ⟨_, .bytes blob⟩
  | @array element items helement hbyte _ ih =>
      obtain ⟨hdistinct, hitems⟩ := hfaithful
      have hrepresents : ∀ item ∈ items, ∃ x, Represents element x item := fun item hitem =>
        ih item hitem (Variant.areFaithful_iff.mp hitems item hitem)
      by_cases hentry : element.IsEntry
      · obtain ⟨keyType, valueType, rfl⟩ := hentry
        cases helement with
        | dictEntry hbasic hkey _ =>
            obtain ⟨code, rfl⟩ := hkey.exists_code_of_isBasic hbasic
            exact Represents.exists_dictionary hdistinct hrepresents
      · exact Represents.exists_list hbyte hentry hrepresents
  | tuple pairs _ ih =>
      rw [Variant.IsFaithful, Variant.areFaithful_iff] at hfaithful
      exact Represents.exists_tuple fun pair hpair =>
        ih pair hpair (hfaithful _ (List.mem_map_of_mem hpair))
  | entry _ _ ihkey ihvalue =>
      obtain ⟨hkey, hvalue⟩ := hfaithful
      obtain ⟨x, hx⟩ := ihkey hkey
      obtain ⟨y, hy⟩ := ihvalue hvalue
      exact ⟨_, .dictEntry hx hy⟩

/-- Every faithful variant that constructors make is unpacked to a value that packing at its own
type restores it from. -/
theorem packing_restores_faithful [Codecs] {settings : Settings} (hchecked : settings.IsChecked)
    {v : Variant} (hbuilt : Built v) {type : SigType}
    (hparse : Signature.parse settings.maxDepth v.typeString = .ok type)
    (hfaithful : v.IsFaithful) :
    ∃ x, v.unpack settings .deep = .ok x ∧
      pack settings (.text v.typeString) x = .ok v := by
  obtain ⟨built, htyped⟩ := hbuilt.isTyped
  obtain ⟨hadmits, htext⟩ := Signature.parse_eq_ok_iff.mp hparse
  -- The constructors know one type of the variant, and the type string spells the same.
  obtain rfl : built = type :=
    htyped.eq_of_typeString hadmits.wellFormed (Signature.text_eq_of_toList_eq htext).symm
  obtain ⟨x, hrepresents⟩ := htyped.exists_represents hfaithful
  obtain ⟨hpack, hunpack⟩ := hrepresents.pack_unpack hchecked hparse
  exact ⟨x, hunpack, hpack⟩

section

open scoped Standard

/-- A dictionary whose only box holds what would not be faithful outside of it. -/
theorem packing_restores_faithful_dictionary :
    ∃ v, v = Variant.array "{sv}" [.entry (.text .string "k") (.box (.just (.nothing "s")))] ∧
      Built v ∧ v.IsFaithful ∧
      ∃ x, v.unpack {} .deep = .ok x ∧ pack {} (.text v.typeString) x = .ok v := by
  have hnothing : Built (.nothing "s") := by
    refine @Built.maybe (some (.text "s")) .null _ ?_ (by simp [Native.variants]) (by rfl)
    simp [TypeSource.IsParsed]
  have hjust : Built (.just (.nothing "s")) := by
    refine @Built.maybe none (.variant (.nothing "s")) _ (by simp) ?_ (by rfl)
    simp [Native.variants, hnothing]
  have hbuilt : Built (.array "{sv}"
      [.entry (.text .string "k") (.box (.just (.nothing "s")))]) := by
    refine @Built.map [(.text "k", .variant (.just (.nothing "s")))] _ ?_ (by rfl)
    simp [Native.variants, Native.variantsOfEntries, hjust]
  have hparse : Signature.parse ({} : Settings).maxDepth "a{sv}" =
      .ok (.array (.dictEntry (.basic (.text .string)) .variant)) := by rfl
  have hfaithful : (Variant.array "{sv}"
      [.entry (.text .string "k") (.box (.just (.nothing "s")))]).IsFaithful := by
    simp [Variant.IsFaithful, Variant.AreFaithful, Variant.key?]
  exact ⟨_, rfl, hbuilt, hfaithful,
    packing_restores_faithful Settings.isChecked_default hbuilt hparse hfaithful⟩

end

end TypedVariant
