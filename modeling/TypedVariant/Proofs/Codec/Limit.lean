import TypedVariant.Proofs.Settings.Checked
import TypedVariant.Proofs.Unpack.Depth

/-!
# One limit for both directions

Packing and unpacking count levels apart from each other, but a variant that was
packed is never too deep to be unpacked. A type is at least as deep as unpacking
reaches into its variants, as long as boxes stay closed. Behind a box there may be
a variant that was handed in, of any depth; anything else was packed into the box
within the limit, and is unpacked within it.
-/

namespace TypedVariant

namespace Native

mutual

/-- No variant is met in a value. A view of a dictionary shows its keys alone, which are text. -/
def HasNoVariants : Native → Prop
  | variant _ => False
  | list items | tuple items | set items | stream items _ => HaveNoVariants items
  | map entries => EntriesHaveNoVariants entries
  | null | bool _ | int _ | double _ | text _ | blob _ _ | range _ _ _ | object _ | sigType _
  | dictionary _ _ | foreign _ => True
termination_by structural x => x

def HaveNoVariants : List Native → Prop
  | [] => True
  | x :: rest => x.HasNoVariants ∧ HaveNoVariants rest
termination_by structural items => items

def EntriesHaveNoVariants : List (Native × Native) → Prop
  | [] => True
  | (key, value) :: rest =>
      (key.HasNoVariants ∧ value.HasNoVariants) ∧ EntriesHaveNoVariants rest
termination_by structural entries => entries

end

theorem haveNoVariants_iff {items : List Native} :
    HaveNoVariants items ↔ ∀ item ∈ items, item.HasNoVariants := by
  induction items with
  | nil => simp [HaveNoVariants]
  | cons item rest ih => simp [HaveNoVariants, ih]

theorem entriesHaveNoVariants_iff {entries : List (Native × Native)} :
    EntriesHaveNoVariants entries ↔
      ∀ entry ∈ entries, entry.1.HasNoVariants ∧ entry.2.HasNoVariants := by
  induction entries with
  | nil => simp [EntriesHaveNoVariants]
  | cons entry rest ih =>
      obtain ⟨key, value⟩ := entry
      simp [EntriesHaveNoVariants, ih]

theorem handedDown_hasNoVariants : HandedDown HasNoVariants where
  list := haveNoVariants_iff.mp
  tuple := haveNoVariants_iff.mp
  set := haveNoVariants_iff.mp
  stream := haveNoVariants_iff.mp
  map := entriesHaveNoVariants_iff.mp
  int _ := trivial
  text _ := trivial
  pair hkey hvalue := haveNoVariants_iff.mpr (by simpa using ⟨hkey, hvalue⟩)

end Native

namespace HasType

variable {v : Variant} {type : SigType} {opening : Opening}

theorem reach_basic {code : BasicCode} (htyped : HasType v (.basic code)) :
    v.reach opening = 0 := by
  cases htyped <;> rfl

theorem isReadable_basic {code : BasicCode} (htyped : HasType v (.basic code)) :
    v.IsReadable opening := by
  cases htyped <;> trivial

/-- As long as boxes stay closed, unpacking reaches no deeper than the type does. -/
theorem reach_le_nesting (htyped : HasType v type) (hclosed : opening.opensBoxes = false) :
    v.reach opening ≤ type.nesting := by
  induction htyped with
  | boolean | integer | double | text | nothing | bytes => exact Nat.zero_le _
  | box => simp [Variant.reach, hclosed]
  | just _ ih =>
      rw [Variant.reach, SigType.nesting]
      split <;> omega
  | tuple parts _ ih =>
      rw [Variant.reach, SigType.nesting]
      split
      next =>
        rw [Variant.reachBelow_le_iff, List.forall_mem_map]
        intro part hpart
        have hmember : part.2.nesting < SigType.nestingBelow (parts.map Prod.snd) :=
          SigType.nesting_lt_nestingBelow (List.mem_map_of_mem hpart)
        have hreach := ih part hpart
        omega
      next => exact Nat.zero_le _
  | array helement _ _ ih =>
      rw [Variant.reach]
      split
      next =>
        rw [Variant.reachBelow_le_iff, SigType.nesting]
        intro item hitem
        have hreach := ih item hitem
        omega
      next =>
        split
        next hdictionary =>
          rw [Bool.and_eq_true, Variant.isDictionaryLike_array_iff helement] at hdictionary
          obtain ⟨⟨key, value, rfl⟩, -⟩ := hdictionary
          simp only [SigType.nesting]
          omega
        next => exact Nat.zero_le _
  | entry _ _ ihkey ihvalue =>
      rw [Variant.reach, SigType.nesting]
      split <;> omega

/-- As long as boxes stay closed, all type strings that are read back belong to the type. -/
theorem isReadable_of_nesting (htyped : HasType v type) (hclosed : opening.opensBoxes = false)
    (hnesting : (type.nesting : Int) ≤ maxDepthLimit) : v.IsReadable opening := by
  induction htyped with
  | boolean | integer | double | text | nothing | bytes => trivial
  | box => simp [Variant.IsReadable, hclosed]
  | just _ ih =>
      rw [SigType.nesting] at hnesting
      exact fun _ => ih (by omega)
  | tuple parts _ ih =>
      intro _
      rw [Variant.areReadable_iff, List.forall_mem_map]
      intro part hpart
      have hmember : part.2.nesting < SigType.nestingBelow (parts.map Prod.snd) :=
        SigType.nesting_lt_nestingBelow (List.mem_map_of_mem hpart)
      rw [SigType.nesting] at hnesting
      exact ih part hpart (by omega)
  | array helement hbyte hitems ih =>
      have htyped := HasType.array helement hbyte hitems
      have hreadable :=
        (Variant.hasReadableType_iff htyped.wellFormed htyped.typeLetters).mpr hnesting
      rw [SigType.nesting] at hnesting
      refine ⟨hreadable, fun _ => Variant.areReadable_iff.mpr ?_⟩
      exact fun item hitem => ih item hitem (by omega)
  | entry _ _ ihkey ihvalue =>
      rw [SigType.nesting] at hnesting
      exact fun _ => ⟨ihkey (by omega), ihvalue (by omega)⟩

/-- An array of basic values is opened by one level. -/
theorem fits_flat {code : BasicCode} (htyped : HasType v (.array (.basic code))) :
    v.reach .recursive ≤ 1 ∧ v.IsReadable .recursive := by
  have hreadable := (Variant.hasReadableType_iff htyped.wellFormed htyped.typeLetters).mpr
    (by simp [SigType.nesting, maxDepthLimit])
  cases htyped with
  | bytes => exact ⟨Nat.zero_le 1, trivial⟩
  | array _ _ hitems =>
      refine ⟨Variant.reachBelow_le_iff.mpr ?_, hreadable, fun _ => ?_⟩
      · intro item hitem
        simp [(hitems item hitem).reach_basic]
      · exact Variant.areReadable_iff.mpr (fun item hitem => (hitems item hitem).isReadable_basic)

end HasType

/-- A variant that lies at some depth is opened to its end, through all of its boxes, within a
limit, and the type strings that are read back on the way can be read. -/
structure OpensWithin (limit depth : Int) (v : Variant) : Prop where
  reaches : depth + (v.reach .recursive : Int) ≤ limit
  isReadable : v.IsReadable .recursive

namespace OpensWithin

variable {limit depth : Int}

theorem basic {v : Variant} {code : BasicCode} (hhere : depth ≤ limit)
    (htyped : HasType v (.basic code)) : OpensWithin limit depth v := by
  have hreach : v.reach .recursive = 0 := htyped.reach_basic
  exact ⟨by omega, htyped.isReadable_basic⟩

theorem box {content : Variant} (hcontent : OpensWithin limit (depth + 1) content) :
    OpensWithin limit depth (.box content) := by
  have hreach := hcontent.reaches
  refine ⟨?_, fun _ => hcontent.isReadable⟩
  simp only [Variant.reach, Opening.opensBoxes, if_true]
  omega

theorem nothing {element : String} (hhere : depth ≤ limit) :
    OpensWithin limit depth (.nothing element) := by
  refine ⟨?_, trivial⟩
  simp only [Variant.reach]
  omega

theorem just {content : Variant} (hcontent : OpensWithin limit (depth + 1) content) :
    OpensWithin limit depth (.just content) := by
  have hreach := hcontent.reaches
  refine ⟨?_, fun _ => hcontent.isReadable⟩
  simp only [Variant.reach, Opening.opensChildren, if_true]
  omega

/-- Children that open one level deeper open below their container. -/
theorem below {items : List Variant} (hhere : depth ≤ limit)
    (hitems : ∀ item ∈ items, OpensWithin limit (depth + 1) item) :
    depth + (Variant.reachBelow .recursive items : Int) ≤ limit ∧
      Variant.AreReadable .recursive items :=
  ⟨Variant.fits_below_iff.mp ⟨hhere, fun item hitem => (hitems item hitem).reaches⟩,
    Variant.areReadable_iff.mpr (fun item hitem => (hitems item hitem).isReadable)⟩

theorem array {element : String} {items : List Variant} (hhere : depth ≤ limit)
    (htype : (Variant.array element items).HasReadableType)
    (hitems : ∀ item ∈ items, OpensWithin limit (depth + 1) item) :
    OpensWithin limit depth (.array element items) := by
  obtain ⟨hreach, hreadable⟩ := below hhere hitems
  exact ⟨hreach, htype, fun _ => hreadable⟩

theorem tuple {members : List Variant} (hhere : depth ≤ limit)
    (hmembers : ∀ member ∈ members, OpensWithin limit (depth + 1) member) :
    OpensWithin limit depth (.tuple members) := by
  obtain ⟨hreach, hreadable⟩ := below hhere hmembers
  exact ⟨hreach, fun _ => hreadable⟩

theorem entry {key value : Variant} (hkey : OpensWithin limit (depth + 1) key)
    (hvalue : OpensWithin limit (depth + 1) value) :
    OpensWithin limit depth (.entry key value) := by
  have hkeyReach := hkey.reaches
  have hvalueReach := hvalue.reaches
  refine ⟨?_, fun _ => ⟨hkey.isReadable, hvalue.isReadable⟩⟩
  simp only [Variant.reach, Opening.opensChildren, if_true]
  omega

end OpensWithin

/-- What is packed from a value without variants is unpacked within the same limit, through all of
its boxes. -/
theorem Pack.Packs.opensWithin [Codecs] {settings : Settings} {depth : Int} {type : SigType}
    {x : Native}
    {v : Variant} (hpacks : Packs settings depth type x v)
    (hlimit : settings.maxDepth ≤ maxDepthLimit) (hdepth : 0 ≤ depth)
    (hwf : type.WellFormed false) (hfits : depth + (type.nesting : Int) ≤ settings.maxDepth)
    (hx : x.HasNoVariants) : OpensWithin settings.maxDepth depth v := by
  induction hpacks with
  | basic _ hbuilt => exact .basic (by omega) (hasType_ofBasic hbuilt)
  | boxed => exact hx.elim
  | implied htype hcontentFits _ ih =>
      -- The type of the content is not part of the type of the box, and was checked on its own.
      exact .box (ih (by omega) (wellFormed_of_intrinsicType? htype) hcontentFits hx)
  | nothing => exact .nothing (by omega)
  | just _ _ ih =>
      rw [SigType.nesting] at hfits
      cases hwf with
      | maybe helement => exact .just (ih (by omega) helement (by omega) hx)
  | flat hflat =>
      rw [SigType.nesting] at hfits
      obtain ⟨code, rfl, htyped⟩ := hasType_of_packFlat? hflat
      obtain ⟨hreach, hreadable⟩ := htyped.fits_flat
      exact ⟨by omega, hreadable⟩
  | array parts hflat helements hparts ih =>
      have hpacked := Packs.array parts hflat helements hparts
      have hreadable := (Variant.hasReadableType_iff hwf hpacked.typeLetters).mpr (by omega)
      have hitems := Native.handedDown_hasNoVariants.elementsOf hx helements
      rw [SigType.nesting] at hfits
      rw [List.forall_mem_map] at hitems
      cases hwf with
      | array helement =>
          refine .array (by omega) hreadable (List.forall_mem_map.mpr fun part hpart => ?_)
          exact ih part hpart (by omega) helement (by omega) (hitems part hpart)
  | tuple parts hitems _ ih =>
      have hitems := Native.handedDown_hasNoVariants.sequence? hx hitems
      rw [SigType.nesting] at hfits
      rw [List.forall_mem_map] at hitems
      cases hwf with
      | tuple hmembers =>
          refine .tuple (by omega) (List.forall_mem_map.mpr fun part hpart => ?_)
          have htype : part.1 ∈ parts.map Prod.fst := List.mem_map_of_mem hpart
          have hnesting := SigType.nesting_lt_nestingBelow htype
          exact ih part hpart (by omega) (hmembers _ htype) (by omega) (hitems part hpart)
  | dictEntry hitems _ _ ihkey ihvalue =>
      rw [SigType.nesting] at hfits
      cases hwf with
      | dictEntry _ hkey hvalue =>
          have hboth := Native.handedDown_hasNoVariants.sequence? hx hitems
          exact .entry (ihkey (by omega) hkey (by omega) (hboth _ (by simp)))
            (ihvalue (by omega) hvalue (by omega) (hboth _ (by simp)))

/-- Whatever is packed comes to its value when it is unpacked within the same limit. Where boxes are
opened, no variant may have been handed in. -/
theorem unpack_of_pack [Codecs] {settings : Settings} (hchecked : settings.IsChecked)
    {signature x : Native} {v : Variant} {opening : Opening} (htyped : x.IsTyped)
    (hnone : opening.opensBoxes = true → x.HasNoVariants)
    (hpack : pack settings signature x = .ok v) :
    v.unpack settings opening = .ok (v.unpacked opening) := by
  obtain ⟨text, -, htext⟩ := bind_eq_ok_iff.mp hpack
  obtain ⟨type, hparse, hpacks⟩ := packText_eq_ok_iff.mp htext
  obtain ⟨hwf, hnesting⟩ := Signature.admits_zero_iff.mp (Signature.parse_eq_ok_iff.mp hparse).1
  have hv := hpacks.hasType hwf htyped
  have hlimit := hchecked.2
  apply (Variant.settles_unpackAt hv settings opening 0).eq_ok_iff.mpr
  cases hopening : opening.opensBoxes with
  | false =>
      have hreach := hv.reach_le_nesting hopening
      exact ⟨by omega, hv.isReadable_of_nesting hopening (by omega), rfl⟩
  | true =>
      obtain rfl : opening = .recursive := by
        cases opening <;> first | rfl | cases hopening
      have hopens := hpacks.opensWithin hlimit (Int.le_refl 0) hwf (by omega) (hnone hopening)
      exact ⟨hopens.reaches, hopens.isReadable, rfl⟩

/-- Whatever is packed within a limit is unpacked within the same limit, shallow and deep; if no
variant was handed in, recursively as well. -/
theorem packing_fits_unpacking [Codecs] {settings : Settings} (hchecked : settings.IsChecked)
    {signature x : Native} {v : Variant} (hx : ∀ w ∈ x.variants, Built w)
    (hpack : pack settings signature x = .ok v) :
    (∃ s, v.unpack settings .shallow = .ok s) ∧
    (∃ d, v.unpack settings .deep = .ok d) ∧
    (x.HasNoVariants → ∃ r, v.unpack settings .recursive = .ok r) := by
  have htyped : x.IsTyped := fun w hw => (hx w hw).isTyped
  have hclosed (opening : Opening) (hopening : opening.opensBoxes = false) :
      v.unpack settings opening = .ok (v.unpacked opening) :=
    unpack_of_pack hchecked htyped (by simp [hopening]) hpack
  refine ⟨⟨_, hclosed .shallow rfl⟩, ⟨_, hclosed .deep rfl⟩, fun hnone => ?_⟩
  exact ⟨_, unpack_of_pack hchecked htyped (fun _ => hnone) hpack⟩

section

open scoped Standard

/-- An integer in a box in a list in a box lies at the very limit. -/
theorem packing_fits_unpacking_boxes :
    ∃ v, ({ maxDepth := 3 } : Settings).IsChecked ∧
      (∀ w ∈ (Native.list [.int 1]).variants, Built w) ∧
      pack { maxDepth := 3 } (.text "v") (.list [.int 1]) = .ok v ∧
      (Native.list [.int 1]).HasNoVariants ∧
      ∃ r, v.unpack { maxDepth := 3 } .recursive = .ok r := by
  have hchecked : ({ maxDepth := 3 } : Settings).IsChecked := by decide
  have hx : ∀ w ∈ (Native.list [.int 1]).variants, Built w := by
    simp [Native.variants, Native.variantsAll]
  have hnone : (Native.list [.int 1]).HasNoVariants := by
    simp [Native.HasNoVariants, Native.HaveNoVariants]
  have hitem : Pack.Packs { maxDepth := 3 } 2 .variant (.int 1) (.box (.integer .int64 1)) :=
    .implied rfl (by decide) (.basic rfl rfl)
  have hitems : Pack.Packs { maxDepth := 3 } 1 (.array .variant) (.list [.int 1])
      (.array "v" [.box (.integer .int64 1)]) :=
    .array [(_, _)] rfl rfl (by simpa using hitem)
  have hbox : Pack.Packs { maxDepth := 3 } 0 .variant (.list [.int 1])
      (.box (.array "v" [.box (.integer .int64 1)])) :=
    .implied rfl (by decide) hitems
  have hparse : Signature.parse 3 "v" = .ok .variant := by rfl
  have htext := packText_eq_ok_iff.mpr ⟨_, hparse, hbox⟩
  have hpack : pack { maxDepth := 3 } (.text "v") (.list [.int 1]) =
      .ok (.box (.array "v" [.box (.integer .int64 1)])) := htext
  exact ⟨_, hchecked, hx, hpack, hnone, (packing_fits_unpacking hchecked hx hpack).2.2 hnone⟩

end

end TypedVariant
