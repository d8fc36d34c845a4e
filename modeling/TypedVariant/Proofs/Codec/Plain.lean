import TypedVariant.Proofs.Codec.Represents
import TypedVariant.Proofs.Pack.Agreement

/-!
# Plain values

Plain values are those that boxes take without being told a type: truth values,
numbers, text, blocks of bytes, and collections of plain values. Each item of a
collection gets a box of its own, and recursive unpacking opens all of these, so
nothing but the kind of a collection is lost. Every level of the value costs the
same levels of nesting in both directions: only their number can be in the way.
-/

namespace TypedVariant

namespace Native

/-- The values that boxes take, whatever is in them. The keys of a map are different texts. -/
inductive IsPlain : Native → Prop
  | bool (value : Bool) : IsPlain (.bool value)
  | int {value : Int} (hlow : IntegerCode.int64.low ≤ value)
      (hhigh : value ≤ IntegerCode.uint64.high) : IsPlain (.int value)
  | double (value : Double) : IsPlain (.double value)
  | text {value : String} (hnul : '\x00' ∉ value.toList) : IsPlain (.text value)
  | blob (kind : BlobKind) (data : List UInt8) : IsPlain (.blob kind data)
  | list {items : List Native} (hitems : ∀ item ∈ items, IsPlain item) : IsPlain (.list items)
  | tuple {items : List Native} (hitems : ∀ item ∈ items, IsPlain item) : IsPlain (.tuple items)
  | map (entries : List (String × Native))
      (hdistinct : entries.Pairwise (fun earlier later => earlier.1 ≠ later.1))
      (hkeys : ∀ entry ∈ entries, '\x00' ∉ entry.1.toList)
      (hvalues : ∀ entry ∈ entries, IsPlain entry.2) :
      IsPlain (.map (entries.map (fun entry => (.text entry.1, entry.2))))

mutual

/-- A value with lists for its tuples and fixed blocks of bytes for all others. -/
def normalize : Native → Native
  | list items | tuple items => list (normalizeAll items)
  | map entries => map (normalizeEntries entries)
  | blob _ data => bytes data
  | x => x
termination_by structural x => x

def normalizeAll : List Native → List Native
  | [] => []
  | x :: rest => x.normalize :: normalizeAll rest
termination_by structural items => items

/-- Keys stay as they are, and entries where they are. -/
def normalizeEntries : List (Native × Native) → List (Native × Native)
  | [] => []
  | (key, value) :: rest => (key, value.normalize) :: normalizeEntries rest
termination_by structural entries => entries

end

theorem normalizeAll_eq_map (items : List Native) : normalizeAll items = items.map normalize := by
  induction items with
  | nil => rfl
  | cons x rest ih => rw [normalizeAll, ih, List.map_cons]

theorem normalizeEntries_eq_map (entries : List (Native × Native)) :
    normalizeEntries entries = entries.map (fun entry => (entry.1, entry.2.normalize)) := by
  induction entries with
  | nil => rfl
  | cons entry rest ih => rw [normalizeEntries, ih, List.map_cons]

end Native

/-! ## Surviving a type -/

/-- A value survives a type if it is refused there for its depth alone, and otherwise packed as a
variant that unpacks to the normal form of the value. -/
def Survives [Codecs] (settings : Settings) (depth : Int) (type : SigType) (x : Native) : Prop :=
  ∀ root, Pack.packAs settings root depth type x = .error (.tooDeep settings.maxDepth) ∨
    ∃ v, Pack.packAs settings root depth type x = .ok v ∧
      v.unpackAt settings .recursive depth = .ok x.normalize

namespace Survives

variable {settings : Settings} {depth : Int} {x : Native}

/-- A type that does not fit is survived as well. -/
theorem of_fits [Codecs] {type : SigType}
    (hsurvives : depth + type.nesting ≤ settings.maxDepth → Survives settings depth type x) :
    Survives settings depth type x := by
  intro root
  by_cases hfits : depth + type.nesting ≤ settings.maxDepth
  · exact hsurvives hfits root
  · exact .inl (Pack.packAs_tooDeep (Int.not_le.mp hfits))

/-- At a basic type nothing changes. -/
theorem basic [Codecs] {code : BasicCode} {v : Variant} (hrepresents : Represents (.basic code) x v)
    (hnormal : x.normalize = x) : Survives settings depth (.basic code) x := by
  apply of_fits
  intro hfits root
  have hadmits : Signature.Admits ⟨false, settings.maxDepth⟩ depth false (.basic code) :=
    ⟨.basic code, hfits, by simp⟩
  have hpack := (@Pack.packAs_eq_ok_iff _ root _ _ _ _ _ _ hadmits).mpr
    (hrepresents.packs settings depth)
  have hunpack := hrepresents.unpacks_basic hadmits.depth_le .recursive
  exact .inr ⟨v, hpack, hunpack.trans (congrArg Except.ok hnormal.symm)⟩

/-- A block of bytes is packed as it is, however it is held. -/
theorem bytes [Codecs] (kind : BlobKind) (data : List UInt8) :
    Survives settings depth (.array (.basic (.integer .byte))) (.blob kind data) := by
  apply of_fits
  intro hfits root
  refine .inr ⟨.bytes data, ?_, ?_⟩
  · rw [Pack.packAs_array hfits]
    rfl
  · rw [SigType.nesting] at hfits
    rw [Variant.unpackAt, Variant.checkDepth_of_le (by omega)]
    rfl

/-- A box adds one level on the way in, and takes it away on the way out. -/
theorem box [Codecs] (himplied : ∃ implied, x.intrinsicType? = some implied ∧
      ∀ depth, Survives settings depth implied x) :
    Survives settings depth .variant x := by
  obtain ⟨implied, htype, hsurvives⟩ := himplied
  apply of_fits
  intro hfits root
  rw [Pack.packAs_variant hfits, Pack.asVariant?_of_intrinsicType? htype, htype]
  dsimp only
  obtain hrefused | ⟨v, hpack, hunpack⟩ := hsurvives (depth + 1) implied
  · rw [hrefused]
    exact .inl rfl
  · rw [hpack]
    have hdepth : depth ≤ settings.maxDepth := by
      rw [SigType.nesting] at hfits
      omega
    exact .inr ⟨.box v, rfl, (Variant.unpackAt_box rfl hdepth v).trans hunpack⟩

/-- The items of a list or tuple are boxed one by one. -/
theorem list [Codecs] {items : List Native} (hsequence : x.sequence? = some items)
    (hnormal : x.normalize = .list (items.map Native.normalize))
    (hitems : ∀ item ∈ items, Survives settings (depth + 1) .variant item) :
    Survives settings depth (.array .variant) x := by
  apply of_fits
  intro hfits root
  have hflat : Pack.packFlat? settings .variant x = none := rfl
  have helements : Pack.elementsOf .variant x = .ok items := by
    simp [Pack.elementsOf, hsequence]
  rw [Pack.packAs_array hfits, hflat, helements]
  dsimp only [Except.bind]
  rw [Pack.packAllAs_eq_mapM]
  -- All items can be refused for is their depth, so it does not matter which one comes first.
  obtain hrefused | ⟨parts, rfl, hpacked, hparts⟩ :=
    mapM_refused_or_answered (fun item hitem => hitems item hitem .variant)
  · rw [hrefused]
    exact .inl rfl
  · rw [hpacked]
    refine .inr ⟨_, rfl, ?_⟩
    let normal : List (Native × Variant) := parts.map (fun part => (part.1.normalize, part.2))
    have hnormalParts : ∀ part ∈ normal,
        part.2.unpackAt settings .recursive (depth + 1) = .ok part.1 := by
      intro part hpart
      obtain ⟨packed, hpacked, rfl⟩ := List.mem_map.mp hpart
      exact hparts packed hpacked
    have hdepth : depth ≤ settings.maxDepth := by
      rw [SigType.nesting] at hfits
      omega
    have hlist := Variant.unpackAt_list rfl (by simp [SigType.IsEntry]) (.array .variant)
      (by decide) hdepth hnormalParts
    rw [List.map_map, List.map_map] at hlist
    rw [hnormal, List.map_map]
    exact hlist

/-! ## Maps -/

/-- The type of the entries that a map is boxed with. -/
abbrev entryType : SigType := .dictEntry (.basic (.text .string)) .variant

/-- A key and a value as the pair that an entry is packed from. -/
def pairOf (entry : String × Native) : Native :=
  .tuple [.text entry.1, entry.2]

/-- An entry is packed from a text and what goes into a box beside it. -/
theorem entry [Codecs] {entry : String × Native} (hnul : '\x00' ∉ entry.1.toList)
    (hvalue : Survives settings (depth + 1) .variant entry.2)
    (hfits : depth + entryType.nesting ≤ settings.maxDepth) (root : SigType) :
    Pack.packAs settings root depth entryType (pairOf entry) =
        .error (.tooDeep settings.maxDepth) ∨
      ∃ v, Pack.packAs settings root depth entryType (pairOf entry) = .ok v ∧
        ∃ value, value.unpackAt settings .recursive (depth + 1) = .ok entry.2.normalize ∧
          v = .entry (.text .string entry.1) value := by
  have hkeyFits : depth + 1 + (SigType.basic (.text .string)).nesting ≤ settings.maxDepth := by
    simpa [SigType.nesting] using hfits
  have hadmits : Signature.Admits ⟨false, settings.maxDepth⟩ (depth + 1) true
      (.basic (.text .string)) := ⟨.basic _, hkeyFits, fun _ => rfl⟩
  have hrepresents : Represents (.basic (.text .string)) (.text entry.1) (.text .string entry.1) :=
    .text ⟨by simpa using hnul, rfl⟩
  have hkey := (@Pack.packAs_eq_ok_iff _ root _ _ _ _ _ _ hadmits).mpr
    (hrepresents.packs settings (depth + 1))
  rw [Pack.packAs_dictEntry hfits, pairOf, Native.sequence?]
  dsimp only
  rw [hkey]
  -- The key fits where the entry does, so all that may be refused is the value.
  obtain hrefused | ⟨value, hpack, hunpack⟩ := hvalue root
  · rw [hrefused]
    exact .inl rfl
  · rw [hpack]
    exact .inr ⟨_, rfl, value, hunpack, rfl⟩

/-- Entries with different texts for keys unpack to a map of what their values unpack to. A part is
a key, what its value unpacks to, and the value. -/
theorem unpackAt_textEntries {parts : List (String × Native × Variant)}
    (hfits : depth + 1 + 1 ≤ settings.maxDepth)
    (hdistinct : parts.Pairwise (fun earlier later => earlier.1 ≠ later.1))
    (hvalues : ∀ part ∈ parts,
      part.2.2.unpackAt settings .recursive (depth + 1 + 1) = .ok part.2.1) :
    (Variant.array entryType.text
        (parts.map (fun part => .entry (.text .string part.1) part.2.2))).unpackAt settings
          .recursive depth =
      .ok (.map (parts.map (fun part => (.text part.1, part.2.1)))) := by
  let entries : List ((Native × Native) × (Variant × Variant)) := parts.map (fun part =>
    ((.text part.1, part.2.1), (.text .string part.1, part.2.2)))
  have hwf : (SigType.array entryType).WellFormed false :=
    .array (.dictEntry rfl (.basic _) .variant)
  have hkeysUnpack : ∀ entry ∈ entries,
      entry.2.1.unpackAt settings .recursive (depth + 1 + 1) = .ok entry.1.1 := by
    intro entry hentry
    obtain ⟨part, -, rfl⟩ := List.mem_map.mp hentry
    rw [Variant.unpackAt, Variant.checkDepth_of_le hfits]
    rfl
  have hvaluesUnpack : ∀ entry ∈ entries,
      entry.2.2.unpackAt settings .recursive (depth + 1 + 1) = .ok entry.1.2 := by
    intro entry hentry
    obtain ⟨part, hpart, rfl⟩ := List.mem_map.mp hentry
    exact hvalues part hpart
  have hdifferent : entries.Pairwise (fun earlier later =>
      earlier.1.1.same later.1.1 = false) := by
    rw [List.pairwise_map]
    apply hdistinct.imp
    intro earlier later hne
    simpa [Native.same, Native.isSameNaN, Native.equal] using hne
  have hmap := Variant.unpackAt_dictionary rfl hwf (by decide) (by omega) hkeysUnpack
    hvaluesUnpack hdifferent
  rwa [List.map_map, List.map_map] at hmap

/-- The entries of a map are packed as pairs and unpacked to a map again. -/
theorem map [Codecs] {entries : List (String × Native)}
    (hdistinct : entries.Pairwise (fun earlier later => earlier.1 ≠ later.1))
    (hkeys : ∀ entry ∈ entries, '\x00' ∉ entry.1.toList)
    (hvalues : ∀ entry ∈ entries, Survives settings (depth + 1 + 1) .variant entry.2) :
    Survives settings depth (.array entryType)
      (.map (entries.map (fun entry => (.text entry.1, entry.2)))) := by
  apply of_fits
  intro hfits root
  have hentryFits : depth + 1 + entryType.nesting ≤ settings.maxDepth := by
    rw [SigType.nesting] at hfits
    omega
  have hflat (x : Native) : Pack.packFlat? settings entryType x = none := rfl
  have helements : Pack.elementsOf entryType
      (.map (entries.map (fun entry => (.text entry.1, entry.2)))) = .ok (entries.map pairOf) := by
    simp [Pack.elementsOf, Native.entryPairs, pairOf]
  rw [Pack.packAs_array hfits, hflat, helements]
  dsimp only [Except.bind]
  rw [Pack.packAllAs_eq_mapM, List.mapM_map]
  obtain hrefused | ⟨packed, rfl, hpacked, hparts⟩ :=
    mapM_refused_or_answered (f := Pack.packAs settings entryType (depth + 1) entryType ∘ pairOf)
      (fun item hitem => entry (hkeys item hitem) (hvalues item hitem) hentryFits entryType)
  · rw [hrefused]
    exact .inl rfl
  · rw [hpacked]
    refine .inr ⟨_, rfl, ?_⟩
    obtain ⟨parts, rfl, hunpack⟩ : ∃ parts : List ((String × Native) × Variant),
        packed = parts.map (fun part => (part.1, .entry (.text .string part.1.1) part.2)) ∧
          ∀ part ∈ parts,
            part.2.unpackAt settings .recursive (depth + 1 + 1) = .ok part.1.2.normalize := by
      apply exists_eq_map
      intro part hpart
      obtain ⟨value, hvalue, hv⟩ := hparts part hpart
      exact ⟨(part.1, value), hvalue, Prod.ext rfl hv⟩
    let normal : List (String × Native × Variant) :=
      parts.map (fun part => (part.1.1, part.1.2.normalize, part.2))
    -- Texts are packed and unpacked as they are, so different keys stay different.
    have hdifferent : normal.Pairwise (fun earlier later => earlier.1 ≠ later.1) := by
      rw [List.pairwise_map]
      rwa [List.map_map, List.pairwise_map] at hdistinct
    have hmap := unpackAt_textEntries hentryFits hdifferent (List.forall_mem_map.mpr hunpack)
    rw [Native.normalize, Native.normalizeEntries_eq_map]
    simpa [normal, Function.comp_def] using hmap

end Survives

/-- Integers that are too large to be signed are boxed as unsigned ones. -/
theorem IntegerCode.holds_of_plain {value : Int} (hlow : int64.low ≤ value)
    (hhigh : value ≤ uint64.high) :
    (if int64.high < value then uint64 else int64).Holds value := by
  split_ifs with hlarge
  · exact ⟨by simp only [low, high] at *; omega, hhigh⟩
  · exact ⟨hlow, Int.not_lt.mp hlarge⟩

/-- A plain value survives the type that its kind implies, at any depth. -/
theorem Native.IsPlain.survives [Codecs] {settings : Settings} {x : Native} (hplain : x.IsPlain) :
    ∃ implied, x.intrinsicType? = some implied ∧
      ∀ depth, Survives settings depth implied x := by
  induction hplain with
  | bool value => exact ⟨_, rfl, fun depth => .basic (.boolean value) rfl⟩
  | int hlow hhigh =>
      have hholds := IntegerCode.holds_of_plain hlow hhigh
      exact ⟨_, rfl, fun depth => .basic (.integer hholds) rfl⟩
  | double value => exact ⟨_, rfl, fun depth => .basic (.double value) rfl⟩
  | text hnul => exact ⟨_, rfl, fun depth => .basic (.text ⟨by simpa using hnul, rfl⟩) rfl⟩
  | blob kind data => exact ⟨_, rfl, fun depth => .bytes kind data⟩
  | @list items _ ih | @tuple items _ ih =>
      have hnormal : Native.list (Native.normalizeAll items) =
          .list (items.map Native.normalize) := by rw [Native.normalizeAll_eq_map]
      exact ⟨_, rfl, fun depth => .list rfl hnormal (fun item hitem => .box (ih item hitem))⟩
  | map entries hdistinct hkeys _ ih =>
      exact ⟨_, rfl, fun depth =>
        .map hdistinct hkeys (fun entry hentry => .box (ih entry hentry))⟩

/-- Packing a plain value into a box either exceeds the limit or gives a box whose content has the
signature that is inferred from the value, and recursive unpacking of the box restores the value,
with lists for its tuples and fixed blocks of bytes for all others. -/
theorem boxing_restores_plain [Codecs] (settings : Settings) {x : Native} (hplain : x.IsPlain) :
    pack settings (.text "v") x = .error (.tooDeep settings.maxDepth) ∨
      ∃ content, pack settings (.text "v") x = .ok (.box content) ∧
        x.inferSignature = .ok content.typeString ∧
        (Variant.box content).unpack settings .recursive = .ok x.normalize := by
  by_cases hlimit : 0 ≤ settings.maxDepth
  · have hadmits : Signature.Admits ⟨false, settings.maxDepth⟩ 0 false .variant :=
      Signature.admits_variant_iff.mpr ⟨rfl, hlimit⟩
    have hparse : Signature.parse settings.maxDepth "v" = .ok .variant :=
      Signature.parse_eq_ok_iff.mpr ⟨hadmits, rfl⟩
    have hbox : Survives settings 0 .variant x := .box hplain.survives
    change packText settings "v" x = _ ∨ ∃ content, packText settings "v" x = _ ∧ _
    rw [packText_eq_packAs hparse x]
    obtain hrefused | ⟨v, hpack, hunpack⟩ := hbox .variant
    · exact .inl hrefused
    · have hpacks := (Pack.packAs_eq_ok_iff hadmits).mp hpack
      obtain ⟨content, rfl, hinfers⟩ := hpacks.exists_content
      exact .inr ⟨content, hpack, hinfers, hunpack⟩
  · -- Below zero, no depth at all is within the limit.
    have hdeep := @Pack.packValue_tooDeep settings "v" 0 false x _ "v".toList (by omega)
    change packText settings "v" x = _ ∨ _
    rw [packText, hdeep]
    exact .inl rfl

section

open scoped Standard

/-- A tuple of an integer that is too large to be signed and of a view of bytes. -/
theorem boxing_restores_plain_tuple :
    ∃ x content, x = Native.tuple [.int 9223372036854775808, .blob .view [1]] ∧ x.IsPlain ∧
      pack {} (.text "v") x = .ok (.box content) ∧ content.typeString = "av" ∧
      (Variant.box content).unpack {} .recursive =
        .ok (.list [.int 9223372036854775808, .bytes [1]]) := by
  have hinteger : Native.IsPlain (.int 9223372036854775808) := .int (by decide) (by decide)
  have hplain : Native.IsPlain (.tuple [.int 9223372036854775808, .blob .view [1]]) :=
    .tuple (by simpa using ⟨hinteger, .blob .view [1]⟩)
  have hnumber : Pack.Packs {} 2 .variant (.int 9223372036854775808)
      (.box (.integer .uint64 9223372036854775808)) :=
    .implied rfl (by decide) (.basic rfl rfl)
  have hbytes : Pack.Packs {} 2 .variant (.blob .view [1]) (.box (.bytes [1])) :=
    .implied rfl (by decide) (.flat rfl)
  have hpacks : Pack.Packs {} 0 .variant (.tuple [.int 9223372036854775808, .blob .view [1]])
      (.box (.array "v" [.box (.integer .uint64 9223372036854775808), .box (.bytes [1])])) :=
    .implied rfl (by decide) (.array [(_, _), (_, _)] rfl rfl (by simpa using ⟨hnumber, hbytes⟩))
  have hparse : Signature.parse ({} : Settings).maxDepth "v" = .ok .variant := by rfl
  have hpack := packText_eq_ok_iff.mpr ⟨.variant, hparse, hpacks⟩
  refine ⟨_, _, rfl, hplain, hpack, rfl, ?_⟩
  obtain hrefused | ⟨content, hpacked, -, hunpack⟩ := boxing_restores_plain {} hplain
  · cases hpack.symm.trans hrefused
  · cases hpack.symm.trans hpacked
    exact hunpack

end

end TypedVariant
