import TypedVariant.Proofs.Codec.Limit
import TypedVariant.Proofs.Codec.Repacking
import TypedVariant.Proofs.Variant.Lookup

/-!
# Packed maps keep their entries

The entries of a map are packed one by one, and the dictionary that results has all of
them. Unpacking makes a map of it again, so an entry could get lost there if two keys
became one when they were packed. Only truth values make one key of different ones:
for every other basic type the unpacked map has the entries of the packed one, in its
order.
-/

namespace TypedVariant

open Signature (Admits)

/-- An entry of a map, what its key and its value are packed as, and what the packed value unpacks
to. -/
structure PackedEntry where
  key : Native
  value : Native
  packedKey : Variant
  packedValue : Variant
  opened : Native

namespace PackedEntry

/-- The entry as it stands in the map that is packed. -/
def given (entry : PackedEntry) : Native × Native :=
  (entry.key, entry.value)

/-- The entry as an unpacking of one level shows it. -/
def shown (entry : PackedEntry) : Native × Native :=
  (entry.packedKey.payload, .variant entry.packedValue)

/-- The entry as a deep unpacking shows it. -/
def unpacked (entry : PackedEntry) : Native × Native :=
  (entry.packedKey.payload, entry.opened)

/-- Key and value are packed each by itself, and the packed value is unpacked by itself. -/
structure Follows [Codecs] (settings : Settings) (code : BasicCode) (valueType : SigType)
    (entry : PackedEntry) : Prop where
  packsKey : packText settings (SigType.basic code).text entry.key = .ok entry.packedKey
  packsValue : packText settings valueType.text entry.value = .ok entry.packedValue
  unpacksValue : entry.packedValue.unpack settings .deep = .ok entry.opened

end PackedEntry

/-- A variant of a basic type is represented by what it stores. -/
theorem HasType.represents_payload {v : Variant} {code : BasicCode}
    (htyped : HasType v (.basic code)) :
    Represents (.basic code) v.payload v := by
  cases htyped with
  | boolean value => exact .boolean value
  | integer hholds => exact .integer hholds
  | double value => exact .double value
  | text haccepts => exact .text haccepts

namespace Pack

variable {settings : Settings} {depth less : Int} {type : SigType} {x y : Native} {v w : Variant}

/-- What is packed at some depth is packed alike farther out. -/
theorem Packs.of_le [Codecs] (hpacks : Packs settings depth type x v) (hless : less ≤ depth) :
    Packs settings less type x v := by
  induction hpacks generalizing less with
  | basic hunboxed hbuilt => exact .basic hunboxed hbuilt
  | boxed content => exact .boxed content
  | implied htype hfits _ ih => exact .implied htype (by omega) (ih (by omega))
  | nothing htyped => exact .nothing htyped
  | just hpresent _ ih => exact .just hpresent (ih (by omega))
  | flat hflat => exact .flat hflat
  | array parts hflat helements _ ih =>
      exact .array parts hflat helements (fun part hpart => ih part hpart (by omega))
  | tuple parts hitems _ ih => exact .tuple parts hitems (fun part hpart => ih part hpart (by omega))
  | dictEntry hitems _ _ ihkey ihvalue =>
      exact .dictEntry hitems (ihkey (by omega)) (ihvalue (by omega))

/-! ## Deep unpacking -/

/-- An array of anything but entries comes to its value if its elements do. -/
theorem unpackAt_deep_list {element : SigType} {items : List Variant} (hentry : ¬element.IsEntry)
    (hwf : (SigType.array element).WellFormed false)
    (hlimit : ((SigType.array element).nesting : Int) ≤ maxDepthLimit)
    (hfits : depth ≤ settings.maxDepth)
    (hitems : ∀ item ∈ items,
      item.unpackAt settings .deep (depth + 1) = .ok (item.unpacked .deep)) :
    (Variant.array element.text items).unpackAt settings .deep depth =
      .ok ((Variant.array element.text items).unpacked .deep) := by
  have hnone : ¬(Variant.array element.text items).isDictionaryLike = true := by
    cases hwf with
    | array helement => rwa [Variant.isDictionaryLike_array_iff helement]
  have hparts : ∀ part ∈ items.map (fun item => (item.unpacked .deep, item)),
      part.2.unpackAt settings .deep (depth + 1) = .ok part.1 := List.forall_mem_map.mpr hitems
  have hlist := Variant.unpackAt_list rfl hentry hwf hlimit hfits hparts
  rw [List.map_map, List.map_map] at hlist
  have hself : items.map (Prod.snd ∘ fun item => (item.unpacked .deep, item)) = items :=
    List.map_id'' (fun _ => rfl) items
  rw [hself] at hlist
  rw [Variant.unpacked, if_neg hnone, Variant.unpackedAll_eq_map]
  exact hlist

/-- An array of entries comes to its value if they do. -/
theorem unpackAt_deep_entries {keyType valueType : SigType} {pairs : List (Variant × Variant)}
    (hwf : (SigType.array (.dictEntry keyType valueType)).WellFormed false)
    (hlimit : ((SigType.array (.dictEntry keyType valueType)).nesting : Int) ≤ maxDepthLimit)
    (hfits : depth + 1 ≤ settings.maxDepth)
    (hpairs : ∀ pair ∈ pairs, (Variant.ofPair pair).unpackAt settings .deep (depth + 1) =
      .ok ((Variant.ofPair pair).unpacked .deep)) :
    (Variant.array (SigType.dictEntry keyType valueType).text
      (pairs.map Variant.ofPair)).unpackAt settings .deep depth =
      .ok ((Variant.array (SigType.dictEntry keyType valueType).text
        (pairs.map Variant.ofPair)).unpacked .deep) := by
  have hdictionary : (Variant.array (SigType.dictEntry keyType valueType).text
      (pairs.map Variant.ofPair)).isDictionaryLike = true := by
    cases hwf with
    | array hentry => exact (Variant.isDictionaryLike_array_iff hentry).mpr ⟨_, _, rfl⟩
  have hboth : ∀ pair ∈ pairs,
      pair.1.unpackAt settings .deep (depth + 1 + 1) = .ok (pair.1.unpacked .deep) ∧
        pair.2.unpackAt settings .deep (depth + 1 + 1) = .ok (pair.2.unpacked .deep) := by
    intro pair hpair
    obtain ⟨key, value, hkey, hvalue, hlist⟩ :=
      (Variant.unpackAt_entry_eq_ok_iff rfl hfits).mp (hpairs pair hpair)
    cases hlist
    exact ⟨hkey, hvalue⟩
  have hparts : ∀ part ∈ pairs.map (fun pair => (Variant.unpackedPair .deep pair, pair)),
      part.2.1.unpackAt settings .deep (depth + 1 + 1) = .ok part.1.1 ∧
        part.2.2.unpackAt settings .deep (depth + 1 + 1) = .ok part.1.2 :=
    List.forall_mem_map.mpr hboth
  have hmap := Variant.unpackAt_entries rfl hwf hlimit hfits
    (fun part hpart => (hparts part hpart).1) (fun part hpart => (hparts part hpart).2)
  rw [List.map_map, List.map_map] at hmap
  rw [Variant.unpacked, if_pos hdictionary, Variant.unpackedEntries_ofPair]
  exact hmap

/-- An array comes to its value if its elements do, of which those of a dictionary are entries. -/
theorem unpackAt_deep_array {element : SigType} {items : List Variant}
    (hwf : (SigType.array element).WellFormed false)
    (hlimit : ((SigType.array element).nesting : Int) ≤ maxDepthLimit)
    (hfits : depth + 1 ≤ settings.maxDepth)
    (hentries : element.IsEntry → ∀ item ∈ items, ∃ pair, item = Variant.ofPair pair)
    (hitems : ∀ item ∈ items,
      item.unpackAt settings .deep (depth + 1) = .ok (item.unpacked .deep)) :
    (Variant.array element.text items).unpackAt settings .deep depth =
      .ok ((Variant.array element.text items).unpacked .deep) := by
  by_cases hentry : element.IsEntry
  · obtain ⟨pairs, rfl, -⟩ : ∃ pairs : List (Variant × Variant),
        items = pairs.map Variant.ofPair ∧ ∀ pair ∈ pairs, True := by
      refine exists_eq_map fun item hitem => ?_
      obtain ⟨pair, hpair⟩ := hentries hentry item hitem
      exact ⟨pair, trivial, hpair⟩
    rw [List.forall_mem_map] at hitems
    obtain ⟨keyType, valueType, rfl⟩ := hentry
    exact unpackAt_deep_entries hwf hlimit hfits hitems
  · exact unpackAt_deep_list hentry hwf hlimit (by omega) hitems

/-- A tuple comes to its value if its members do. -/
theorem unpackAt_deep_tuple {members : List Variant} (hfits : depth ≤ settings.maxDepth)
    (hmembers : ∀ member ∈ members,
      member.unpackAt settings .deep (depth + 1) = .ok (member.unpacked .deep)) :
    (Variant.tuple members).unpackAt settings .deep depth =
      .ok ((Variant.tuple members).unpacked .deep) := by
  have hparts : ∀ part ∈ members.map (fun member => (member.unpacked .deep, member)),
      part.2.unpackAt settings .deep (depth + 1) = .ok part.1 := List.forall_mem_map.mpr hmembers
  have htuple := Variant.unpackAt_tuple rfl hfits hparts
  rw [List.map_map, List.map_map] at htuple
  have hself : members.map (Prod.snd ∘ fun member => (member.unpacked .deep, member)) = members :=
    List.map_id'' (fun _ => rfl) members
  rw [hself] at htuple
  rw [Variant.unpacked, Variant.unpackedAll_eq_map]
  exact htuple

theorem Packs.exists_pair [Codecs] {element : SigType} (hentry : element.IsEntry)
    (hpacks : Packs settings depth element x v) : ∃ pair, v = Variant.ofPair pair := by
  obtain ⟨keyType, valueType, rfl⟩ := hentry
  cases hpacks with
  | @dictEntry _ _ _ _ _ _ key value => exact ⟨(key, value), rfl⟩

/-- Whatever is packed comes to its value when it is unpacked deep, wherever its type is admitted. A
box stays closed, so it does not matter which variants were handed in. -/
theorem Packs.unpackAt_deep [Codecs] (hpacks : Packs settings depth type x v)
    (hlimit : settings.maxDepth ≤ maxDepthLimit) {place : Int} (hplace : 0 ≤ place) {simple : Bool}
    (hadmits : Admits ⟨false, settings.maxDepth⟩ place simple type) :
    v.unpackAt settings .deep place = .ok (v.unpacked .deep) := by
  induction hpacks generalizing place simple with
  | basic _ hbuilt =>
      rw [Variant.unpackAt_basic (hasType_ofBasic hbuilt),
        Variant.checkDepth_of_le hadmits.depth_le]
      rfl
  | boxed | implied | nothing =>
      rw [Variant.unpackAt, Variant.checkDepth_of_le hadmits.depth_le]
      rfl
  | just _ _ ih =>
      obtain ⟨-, helement⟩ := Signature.admits_maybe_iff.mp hadmits
      rw [Variant.unpackAt_just rfl hadmits.depth_le]
      exact ih (by omega) helement
  | flat hflat =>
      -- What is packed as a whole has no derivations of parts; its type says how far it reaches.
      obtain ⟨code, rfl, htyped⟩ := hasType_of_packFlat? hflat
      have hreach := htyped.reach_le_nesting (rfl : Opening.deep.opensBoxes = false)
      have hnesting := hadmits.nesting_le hlimit hplace
      have hfits : place + (_ : Int) ≤ settings.maxDepth := hadmits.fits
      exact (Variant.settles_unpackAt htyped settings .deep place).eq_ok_iff.mpr
        ⟨by omega, htyped.isReadable_of_nesting rfl hnesting, rfl⟩
  | array parts _ _ hparts ih =>
      obtain ⟨-, helement⟩ := Signature.admits_array_iff.mp hadmits
      refine unpackAt_deep_array hadmits.wellFormed (hadmits.nesting_le hlimit hplace)
        helement.depth_le (fun hentry => ?_) (List.forall_mem_map.mpr fun part hpart => ?_)
      · exact List.forall_mem_map.mpr fun part hpart => (hparts part hpart).exists_pair hentry
      · exact ih part hpart (by omega) helement
  | tuple parts _ _ ih =>
      obtain ⟨-, hfits, hmembers⟩ := Signature.admits_tuple_iff.mp hadmits
      rw [List.forall_mem_map] at hmembers
      refine unpackAt_deep_tuple hfits (List.forall_mem_map.mpr fun part hpart => ?_)
      exact ih part hpart (by omega) (hmembers part hpart)
  | dictEntry _ _ _ ihkey ihvalue =>
      obtain ⟨-, hkey, hvalue⟩ := Signature.admits_dictEntry_iff.mp hadmits
      exact (Variant.unpackAt_entry_eq_ok_iff rfl hadmits.depth_le).mpr
        ⟨_, _, ihkey (by omega) hkey, ihvalue (by omega) hvalue, rfl⟩

/-! ## Keys -/

/-- Different keys are stored as different values, unless they are truth values of the same
outcome. -/
theorem payload_same_eq_false {code : BasicCode} (hx : Variant.ofBasic code x = .ok v)
    (hy : Variant.ofBasic code y = .ok w) (hnumberX : x.isNaN = false)
    (hnumberY : y.isNaN = false) (htruth : code = .boolean → x.isTruthy ≠ y.isTruthy)
    (hdifferent : x.same y = false) : v.payload.same w.payload = false := by
  rw [(hasType_ofBasic hx).represents_payload.same_eq_equal
    (hasType_ofBasic hy).represents_payload, ← Bool.not_eq_true]
  intro hequal
  -- Truth values are equal by their outcome alone, and other variants by what they were made of.
  by_cases hcode : code = .boolean
  · subst hcode
    obtain rfl := Except.ok.inj hx
    obtain rfl := Except.ok.inj hy
    exact htruth rfl (by simpa [Variant.ofBoolean, Variant.equal] using hequal)
  · have hsame := Native.same_of_equal_ofBasic hcode hx hy hnumberX hnumberY hequal
    rw [hsame] at hdifferent
    cases hdifferent

/-! ## Entries -/

/-- What is packed at a type is packed at the text of the type. -/
theorem Packs.packText [Codecs] (hpacks : Packs settings depth type x v) (hdepth : 0 ≤ depth)
    {simple : Bool} (hadmits : Admits ⟨false, settings.maxDepth⟩ depth simple type) :
    packText settings type.text x = .ok v := by
  have hparse : Signature.parse settings.maxDepth type.text = .ok type :=
    Signature.parse_eq_ok_iff.mpr ⟨Signature.admits_zero_iff.mpr
      ⟨hadmits.wellFormed, hadmits.nesting_le (Int.le_refl _) hdepth⟩, SigType.toList_text type⟩
  exact packText_eq_ok_iff.mpr ⟨type, hparse, hpacks.of_le hdepth⟩

/-- And the other way round, for a type that no other one is written as. -/
theorem packs_of_packText [Codecs] (hwf : type.WellFormed false)
    (hpack : packText settings type.text x = .ok v) :
    Admits ⟨false, settings.maxDepth⟩ 0 false type ∧ Packs settings 0 type x v := by
  obtain ⟨found, hparse, hpacks⟩ := packText_eq_ok_iff.mp hpack
  obtain ⟨hadmits, hletters⟩ := Signature.parse_eq_ok_iff.mp hparse
  rw [SigType.toList_text] at hletters
  obtain rfl := SigType.letters_inj hwf hadmits.wellFormed hletters
  exact ⟨hadmits, hpacks⟩

/-- The entries of a map are packed side by side. -/
theorem Packs.exists_packedEntries [Codecs] {code : BasicCode} {valueType : SigType}
    {entries : List (Native × Native)}
    (hpacks : Packs settings 0 (.array (.dictEntry (.basic code) valueType)) (.map entries) v)
    (hlimit : settings.maxDepth ≤ maxDepthLimit)
    (hkey : Admits ⟨false, settings.maxDepth⟩ (0 + 1 + 1) true (.basic code))
    (hvalue : Admits ⟨false, settings.maxDepth⟩ (0 + 1 + 1) false valueType) :
    ∃ packed : List PackedEntry, packed.map PackedEntry.given = entries ∧
      v = .array (SigType.dictEntry (.basic code) valueType).text
        (packed.map (fun entry => .entry entry.packedKey entry.packedValue)) ∧
      ∀ entry ∈ packed, entry.Follows settings code valueType ∧
        Variant.ofBasic code entry.key = .ok entry.packedKey ∧
        entry.packedValue.unpackAt settings .deep (0 + 1 + 1) = .ok entry.opened := by
  cases hpacks with
  | flat hflat => simp [packFlat?] at hflat
  | array parts _ helements hparts =>
      have hpairs : Native.entryPairs entries = parts.map Prod.fst := Except.ok.inj helements
      obtain ⟨packed, rfl, hpacked⟩ : ∃ packed : List PackedEntry,
          parts = packed.map (fun entry => (.tuple [entry.key, entry.value],
            .entry entry.packedKey entry.packedValue)) ∧
          ∀ entry ∈ packed, entry.Follows settings code valueType ∧
            Variant.ofBasic code entry.key = .ok entry.packedKey ∧
            entry.packedValue.unpackAt settings .deep (0 + 1 + 1) = .ok entry.opened := by
        apply exists_eq_map
        intro part hpart
        have hitem : part.1 ∈ Native.entryPairs entries := by
          rw [hpairs]
          exact List.mem_map_of_mem hpart
        obtain ⟨entry, -, hentry⟩ := List.mem_map.mp hitem
        have hpacks := hparts part hpart
        obtain ⟨item, packed⟩ := part
        obtain rfl : .tuple [entry.1, entry.2] = item := hentry
        cases hpacks with
        | @dictEntry _ _ _ _ _ _ key value hitems hkeyPacks hvaluePacks =>
            cases hitems
            have hkeyText := hkeyPacks.packText (by omega) hkey
            cases hkeyPacks with
            | basic _ hbuilt =>
                refine ⟨⟨entry.1, entry.2, key, value, value.unpacked .deep⟩, ⟨⟨hkeyText,
                  hvaluePacks.packText (by omega) hvalue, ?_⟩, hbuilt, ?_⟩, rfl⟩
                · exact hvaluePacks.unpackAt_deep hlimit (Int.le_refl 0)
                    (Signature.admits_zero_iff.mpr ⟨hvalue.wellFormed,
                      hvalue.nesting_le (Int.le_refl _) (by omega)⟩)
                · exact hvaluePacks.unpackAt_deep hlimit (by omega) hvalue
      refine ⟨packed, Restores.entryPairs_injective ?_, by rw [List.map_map]; rfl, hpacked⟩
      rw [hpairs, List.map_map, Native.entryPairs, List.map_map]
      rfl

end Pack

/-- Unpacking what a map was packed as gives a map with as many entries in the same order: each key
is the packed form of the key at its place, and each value comes from the value there. Keys may be
packed as truth values only if no two of them count as the same. -/
theorem packing_keeps_entries [Codecs] {settings : Settings} (hchecked : settings.IsChecked)
    {signature : String} {code : BasicCode} {valueType : SigType}
    (hparse : Signature.parse settings.maxDepth signature =
      .ok (.array (.dictEntry (.basic code) valueType)))
    {entries : List (Native × Native)} {v : Variant}
    (hdistinct : entries.Pairwise (fun earlier later => earlier.1.same later.1 = false))
    (hnumbers : ∀ entry ∈ entries, entry.1.isNaN = false)
    (htruth : code = .boolean →
      entries.Pairwise (fun earlier later => earlier.1.isTruthy ≠ later.1.isTruthy))
    (hpack : pack settings (.text signature) (.map entries) = .ok v) :
    ∃ packed : List PackedEntry,
      packed.map PackedEntry.given = entries ∧
      (∀ entry ∈ packed, entry.Follows settings code valueType) ∧
      v.unpack settings .shallow = .ok (.map (packed.map PackedEntry.shown)) ∧
      v.unpack settings .deep = .ok (.map (packed.map PackedEntry.unpacked)) := by
  obtain ⟨type, htype, hpacks⟩ := packText_eq_ok_iff.mp hpack
  obtain rfl := Except.ok.inj (hparse.symm.trans htype)
  have hadmits := (Signature.parse_eq_ok_iff.mp hparse).1
  obtain ⟨-, hentry⟩ := Signature.admits_array_iff.mp hadmits
  obtain ⟨-, hkey, hvalue⟩ := Signature.admits_dictEntry_iff.mp hentry
  have hlimit := hadmits.nesting_le hchecked.2 (Int.le_refl 0)
  obtain ⟨packed, rfl, rfl, hpacked⟩ := hpacks.exists_packedEntries hchecked.2 hkey hvalue
  have hbasic : ∀ entry ∈ packed, HasType entry.packedKey (.basic code) :=
    fun entry hentry => hasType_ofBasic (hpacked entry hentry).2.1
  have hapart : packed.Pairwise (fun earlier later =>
      earlier.packedKey.payload.same later.packedKey.payload = false) := by
    have houtcomes : packed.Pairwise (fun earlier later =>
        code = .boolean → earlier.key.isTruthy ≠ later.key.isTruthy) := by
      by_cases hcode : code = .boolean
      · exact (List.pairwise_map.mp (htruth hcode)).imp (fun houtcome _ => houtcome)
      · exact List.pairwise_of_forall (fun _ _ h => absurd h hcode)
    rw [List.forall_mem_map] at hnumbers
    apply ((List.pairwise_map.mp hdistinct).and houtcomes).imp_of_mem
    rintro earlier later hearlier hlater ⟨hdifferent, houtcome⟩
    exact Pack.payload_same_eq_false (hpacked earlier hearlier).2.1 (hpacked later hlater).2.1
      (hnumbers earlier hearlier) (hnumbers later hlater) houtcome hdifferent
  refine ⟨packed, rfl, fun entry hentry => (hpacked entry hentry).1, ?_, ?_⟩
  · have hkeys : ∀ pair ∈ packed.map (fun entry => (entry.packedKey, entry.packedValue)),
        HasType pair.1 (.basic code) := List.forall_mem_map.mpr hbasic
    have hshown := Variant.unpackAt_shown hadmits.wellFormed hlimit hkeys hadmits.depth_le
      (fun _ => hkey.depth_le)
    rw [List.map_map, List.map_map] at hshown
    exact hshown.trans (congrArg Except.ok
      (Native.mapOf_of_pairwise (List.pairwise_map.mpr hapart)))
  · have hparts : ∀ part ∈ packed.map
        (fun entry => (entry.unpacked, entry.packedKey, entry.packedValue)),
        part.2.1.unpackAt settings .deep (0 + 1 + 1) = .ok part.1.1 ∧
          part.2.2.unpackAt settings .deep (0 + 1 + 1) = .ok part.1.2 :=
      List.forall_mem_map.mpr (fun entry hentry =>
        ⟨(hbasic entry hentry).represents_payload.unpacks_basic hkey.depth_le .deep,
          (hpacked entry hentry).2.2⟩)
    have hdeep := Variant.unpackAt_dictionary rfl hadmits.wellFormed hlimit hentry.depth_le
      (fun part hpart => (hparts part hpart).1) (fun part hpart => (hparts part hpart).2)
      (List.pairwise_map.mpr hapart)
    rw [List.map_map, List.map_map] at hdeep
    exact hdeep

section

open scoped Standard

/-- A truth value and an integer as keys of one map of texts. -/
theorem packing_keeps_entries_mixed :
    ∃ entries v, entries = [(Native.bool true, Native.text "a"), (.int 2, .text "b")] ∧
      ({} : Settings).IsChecked ∧
      Signature.parse ({} : Settings).maxDepth "a\x7bis\x7d" =
        .ok (.array (.dictEntry (.basic (.integer .int32)) (.basic (.text .string)))) ∧
      entries.Pairwise (fun earlier later => earlier.1.same later.1 = false) ∧
      (∀ entry ∈ entries, entry.1.isNaN = false) ∧
      pack {} (.text "a\x7bis\x7d") (.map entries) = .ok v ∧
      ∃ packed : List PackedEntry, packed.map PackedEntry.given = entries ∧
        (∀ entry ∈ packed,
          entry.Follows {} (.integer .int32) (.basic (.text .string))) ∧
        v.unpack {} .shallow = .ok (.map (packed.map PackedEntry.shown)) ∧
        v.unpack {} .deep = .ok (.map (packed.map PackedEntry.unpacked)) := by
  have hparse : Signature.parse ({} : Settings).maxDepth "a\x7bis\x7d" =
      .ok (.array (.dictEntry (.basic (.integer .int32)) (.basic (.text .string)))) := by rfl
  have hdistinct : [(Native.bool true, Native.text "a"), (.int 2, .text "b")].Pairwise
      (fun earlier later => earlier.1.same later.1 = false) := by
    simp [Native.same, Native.isSameNaN, Native.equal, Native.number?, Native.Number.equal]
  have hnumbers : ∀ entry ∈ [(Native.bool true, Native.text "a"), (.int 2, .text "b")],
      entry.1.isNaN = false := by simp [Native.isNaN]
  have hfirst : Pack.Packs {} 1 (.dictEntry (.basic (.integer .int32)) (.basic (.text .string)))
      (.tuple [.bool true, .text "a"]) (.entry (.integer .int32 1) (.text .string "a")) :=
    .dictEntry rfl (.basic rfl rfl) (.basic rfl rfl)
  have hsecond : Pack.Packs {} 1 (.dictEntry (.basic (.integer .int32)) (.basic (.text .string)))
      (.tuple [.int 2, .text "b"]) (.entry (.integer .int32 2) (.text .string "b")) :=
    .dictEntry rfl (.basic rfl rfl) (.basic rfl rfl)
  have hpacks : Pack.Packs {} 0
      (.array (.dictEntry (.basic (.integer .int32)) (.basic (.text .string))))
      (.map [(.bool true, .text "a"), (.int 2, .text "b")]) (.array "\x7bis\x7d"
        [.entry (.integer .int32 1) (.text .string "a"),
          .entry (.integer .int32 2) (.text .string "b")]) :=
    .array [(_, _), (_, _)] rfl rfl (by simpa using ⟨hfirst, hsecond⟩)
  have hpack := packText_eq_ok_iff.mpr ⟨_, hparse, hpacks⟩
  exact ⟨_, _, rfl, Settings.isChecked_default, hparse, hdistinct, hnumbers, hpack,
    packing_keeps_entries Settings.isChecked_default hparse hdistinct hnumbers (by simp) hpack⟩

/-- Different integers are packed as one truth value, and only the last entry is left. -/
theorem packing_truth_values_as_keys :
    ∃ v, ({} : Settings).IsChecked ∧ (Native.int 1).same (.int 2) = false ∧
      (Native.int 1).isNaN = false ∧ (Native.int 2).isNaN = false ∧
      pack {} (.text "a\x7bbi\x7d") (.map [(.int 1, .int 10), (.int 2, .int 20)]) = .ok v ∧
      v.unpack {} .shallow = .ok (.map [(.bool true, .variant (.integer .int32 20))]) ∧
      v.unpack {} .deep = .ok (.map [(.bool true, .int 20)]) := by
  have hparse : Signature.parse ({} : Settings).maxDepth "a\x7bbi\x7d" =
      .ok (.array (.dictEntry (.basic .boolean) (.basic (.integer .int32)))) := by rfl
  have hfirst : Pack.Packs {} 1 (.dictEntry (.basic .boolean) (.basic (.integer .int32)))
      (.tuple [.int 1, .int 10]) (.entry (.boolean true) (.integer .int32 10)) :=
    .dictEntry rfl (.basic rfl rfl) (.basic rfl rfl)
  have hsecond : Pack.Packs {} 1 (.dictEntry (.basic .boolean) (.basic (.integer .int32)))
      (.tuple [.int 2, .int 20]) (.entry (.boolean true) (.integer .int32 20)) :=
    .dictEntry rfl (.basic rfl rfl) (.basic rfl rfl)
  have hpacks : Pack.Packs {} 0
      (.array (.dictEntry (.basic .boolean) (.basic (.integer .int32))))
      (.map [(.int 1, .int 10), (.int 2, .int 20)]) (.array "\x7bbi\x7d"
        [.entry (.boolean true) (.integer .int32 10),
          .entry (.boolean true) (.integer .int32 20)]) :=
    .array [(_, _), (_, _)] rfl rfl (by simpa using ⟨hfirst, hsecond⟩)
  exact ⟨_, Settings.isChecked_default, by rfl, by rfl, by rfl,
    packText_eq_ok_iff.mpr ⟨_, hparse, hpacks⟩, by rfl, by rfl⟩

end

end TypedVariant
