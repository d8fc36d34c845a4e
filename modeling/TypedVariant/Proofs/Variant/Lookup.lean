import TypedVariant.Proofs.Native.Keys
import TypedVariant.Proofs.Unpack.Depth
import TypedVariant.Variant.Access

/-!
# Lookups in dictionaries

A lookup goes through the entries of a dictionary and stops at the first one with
the key, while unpacking puts all entries into a map, where later values replace
earlier ones. Both find something under the same keys, and the same unless the key
comes twice.
-/

namespace TypedVariant

/-- Where no two items of a list have a property, the first one with it is the last one. -/
theorem find?_reverse_of_pairwise {α : Type} {p : α → Bool} {items : List α}
    (hitems : items.Pairwise (fun earlier later => ¬(p earlier = true ∧ p later = true))) :
    items.reverse.find? p = items.find? p := by
  induction hitems with
  | nil => rfl
  | @cons item rest hitem _ ih =>
      rw [List.reverse_cons, List.find?_append, ih, List.find?_cons]
      cases hp : p item with
      | false => simp [hp]
      | true =>
          have hrest : rest.find? p = none :=
            List.find?_eq_none.mpr (fun other hother h => hitem other hother ⟨hp, h⟩)
          simp [hrest, hp]

/-- Sameness and equality differ only for the double that is no number. -/
theorem Native.equal_eq_same {x y : Native} (hnumber : y.isNaN = false) :
    x.equal y = x.same y := by
  have hmark : x.isSameNaN y = false := by
    unfold Native.isSameNaN
    split
    next a b =>
      cases b with
      | nan => cases hnumber
      | _ => cases a <;> rfl
    next => rfl
  rw [Native.same, hmark, Bool.false_or]

namespace Variant

variable {v : Variant} {type : SigType} {key : Native} {pairs : List (Variant × Variant)}

/-- A variant without the box around it, if it is in one. -/
def behindBox : Variant → Variant
  | box content => content
  | v => v

/-! ## The entries of a dictionary -/

/-- A typed variant that the pattern of dictionaries covers is an array of entries whose keys are of
one basic type. -/
theorem exists_dictionary (htyped : HasType v type)
    (hdictionary : v.isOfType (.text "a\x7b?*\x7d") = .ok true) :
    v.HasReadableType ∧ ∃ code valueType, ∃ pairs : List (Variant × Variant),
      (SigType.dictEntry (.basic code) valueType).WellFormed false ∧
      v = .array (SigType.dictEntry (.basic code) valueType).text (pairs.map ofPair) ∧
      ∀ pair ∈ pairs, HasType pair.1 (.basic code) ∧ HasType pair.2 valueType := by
  obtain ⟨subject, hsubject, hcovered⟩ := bind_eq_ok_iff.mp hdictionary
  obtain ⟨found, hparse, rfl⟩ := map_eq_ok_iff.mp hsubject
  obtain ⟨hadmits, hletters⟩ := Signature.parse_eq_ok_iff.mp hparse
  rw [htyped.typeString, SigType.toList_text] at hletters
  obtain rfl := SigType.letters_inj htyped.wellFormed hadmits.wellFormed hletters
  have hpattern : Signature.patternOf maxDepthLimit (.text "a\x7b?*\x7d") =
      .ok (.ok SigType.dictionaryPattern) := by rfl
  rw [hpattern] at hcovered
  have hcovers : SigType.dictionaryPattern.covers type = true := Except.ok.inj hcovered
  refine ⟨⟨type, hparse⟩, ?_⟩
  cases type with
  | array element =>
      have hwf : element.WellFormed false := by
        cases htyped.wellFormed with
        | array helement => exact helement
      obtain ⟨keyType, valueType, rfl⟩ := (SigType.dictionaryPattern_covers_iff hwf).mp hcovers
      cases htyped with
      | array _ _ hitems =>
          obtain ⟨pairs, rfl, hpairs⟩ :=
            exists_pairs_of_isEntry ⟨keyType, valueType, rfl⟩ hitems
          cases hwf with
          | dictEntry hbasic hkey hvalue =>
              obtain ⟨code, rfl⟩ := hkey.exists_code_of_isBasic hbasic
              refine ⟨code, valueType, pairs, .dictEntry rfl hkey hvalue, rfl, ?_⟩
              intro pair hpair
              cases hpairs pair hpair with
              | entry hkey hvalue => exact ⟨hkey, hvalue⟩
  | _ => simp [SigType.dictionaryPattern, SigType.covers] at hcovers

/-- Where the entries are gone through in order, the first one with the key is found. -/
theorem findEntry_ofPair :
    findEntry? key (pairs.map ofPair) =
      (pairs.find? (fun pair => pair.1.payload.equal key)).map Prod.snd := by
  induction pairs with
  | nil => rfl
  | cons pair rest ih =>
      rw [List.map_cons, ofPair, findEntry?, ih, List.find?_cons]
      cases pair.1.payload.equal key <;> rfl

theorem payload_eq_unpacked {code : BasicCode} {opening : Opening}
    (htyped : HasType v (.basic code)) : v.payload = v.unpacked opening := by
  cases htyped <;> rfl

theorem keyValue?_payload {code : BasicCode} (htyped : HasType v (.basic code)) :
    v.payload.keyValue?.isSome = true := by
  cases htyped <;> rfl

theorem opened_none (htyped : HasType v type) : opened none v = .variant v.behindBox := by
  cases htyped <;> rfl

/-- The key and the value of an entry, as an unpacking of one level shows them. -/
def shownPair (pair : Variant × Variant) : Native × Native :=
  (pair.1.payload, .variant pair.2)

variable {settings : Settings} {depth : Int} {code : BasicCode} {valueType : SigType}

theorem unpackPair_shown {pair : Variant × Variant} (hkey : HasType pair.1 (.basic code))
    (hfits : depth + 1 ≤ settings.maxDepth) :
    unpackPair settings .shallow depth pair = .ok (shownPair pair) := by
  have hkept : unpackPair settings .shallow depth pair =
      checkDepth settings depth >>= fun _ =>
        pair.1.unpackAt settings .deep (depth + 1) >>= fun k => pure (k, .variant pair.2) := rfl
  rw [hkept, checkDepth_of_le (by omega), unpackAt_basic hkey, checkDepth_of_le hfits,
    ← payload_eq_unpacked hkey]
  rfl

/-- A dictionary is unpacked by one level to the map of its keys and values. -/
theorem unpackAt_shown
    (hwf : (SigType.array (.dictEntry (.basic code) valueType)).WellFormed false)
    (hlimit : ((SigType.array (.dictEntry (.basic code) valueType)).nesting : Int) ≤ maxDepthLimit)
    (hkeys : ∀ pair ∈ pairs, HasType pair.1 (.basic code)) (hfits : depth ≤ settings.maxDepth)
    (hfitsKeys : pairs ≠ [] → depth + 2 ≤ settings.maxDepth) :
    (array (SigType.dictEntry (.basic code) valueType).text (pairs.map ofPair)).unpackAt settings
      .shallow depth = .ok (.mapOf (pairs.map shownPair)) := by
  have hentries : unpackEntries settings .shallow (depth + 1) (pairs.map ofPair) =
      .ok (pairs.map shownPair) := by
    rw [unpackEntries_ofPair, mapM_eq_ok_iff_forall₂, List.forall₂_map_right_iff,
      List.forall₂_same]
    intro pair hpair
    have hfits := hfitsKeys (List.ne_nil_of_mem hpair)
    exact unpackPair_shown (hkeys pair hpair) (by omega)
  cases hwf with
  | array hentry =>
      rw [unpackAt, checkDepth_of_le hfits,
        isOfType_dictionary (.array hentry) hlimit (by simp [typeLetters, SigType.letters]),
        (SigType.dictionaryPattern_covers_iff hentry).mpr ⟨_, _, rfl⟩, hentries]
      rfl

/-- The keys of a dictionary lie two levels below it. -/
theorem reach_shallow (hwf : (SigType.dictEntry (.basic code) valueType).WellFormed false)
    (hne : pairs ≠ []) :
    (array (SigType.dictEntry (.basic code) valueType).text (pairs.map ofPair)).reach .shallow =
      2 := by
  have hdictionary : (array (SigType.dictEntry (.basic code) valueType).text
      (pairs.map ofPair)).isDictionaryLike = true :=
    (isDictionaryLike_array_iff hwf).mpr ⟨_, _, rfl⟩
  simp [reach, Opening.opensChildren, hdictionary, hne]

/-- What a lookup finds, where the pattern of dictionaries covers the variant. -/
theorem lookup_of_isOfType (hdictionary : v.isOfType (.text "a\x7b?*\x7d") = .ok true) :
    v.lookup key none = .ok (( findEntry? key (v.children?.getD [])).map (opened none)) := by
  rw [lookup, hdictionary]
  cases findEntry? key (v.children?.getD []) <;> rfl

/-! ## Agreement -/

/-- Whether an entry is stored under a key. -/
def hasKey (key : Native) (pair : Variant × Variant) : Bool :=
  pair.1.payload.same key

theorem lookup?_shownPair :
    Native.lookup? key (pairs.map shownPair) =
      (pairs.find? (hasKey key)).map (fun pair => .variant pair.2) := by
  rw [Native.lookup?, List.find?_map, Option.map_map]
  rfl

theorem contains_eq_ok_true_iff {entries : List (Native × Native)}
    (hkey : key.changeable? = none) :
    Native.contains (.map entries) key = .ok true ↔
      (Native.lookup? key entries).isSome = true := by
  rw [Native.contains, Native.isAmongKeys, hkey, Native.lookup?, Option.isSome_map, List.find?_isSome,
    List.any_map]
  simp

/-- Entries are built from what is built. -/
theorem built_entry {key value : Variant} (hkey : Built key) (hvalue : Built value)
    (hbasic : key.isBasic = true) : Built (.entry key value) := by
  refine @Built.entry (.variant key) (.variant value) _ (by simpa [Native.variants] using hkey)
    (by simpa [Native.variants] using hvalue) ?_
  simp [ofEntry, require, bind, Except.bind, pure, Except.pure, hbasic]

/-- The first entry with the key is the one that is found, and its value is taken out of a box. -/
theorem findEntry_opened
    (hpairs : ∀ pair ∈ pairs, HasType pair.1 (.basic code) ∧ HasType pair.2 valueType)
    (hnumber : key.isNaN = false) :
    ( findEntry? key (pairs.map ofPair)).map (opened none) =
      (pairs.find? (hasKey key)).map (fun pair => .variant pair.2.behindBox) := by
  have hsame : (fun pair : Variant × Variant => pair.1.payload.equal key) = hasKey key := by
    funext pair
    exact Native.equal_eq_same hnumber
  rw [findEntry_ofPair, hsame]
  cases hfound : pairs.find? (hasKey key) with
  | none => rfl
  | some pair =>
      exact congrArg some (opened_none (hpairs pair (List.mem_of_find?_eq_some hfound)).2)

/-- A lookup in a built dictionary finds something under the keys of the map that the dictionary
unpacks to, and under no others. It finds the value of the first entry with the key, out of its box
if it is in one, while the map has the value of the last such entry. -/
theorem lookup_agrees_with_unpacking (hbuilt : Built v)
    (hdictionary : v.isOfType (.text "a\x7b?*\x7d") = .ok true)
    (hfits : (v.reach .shallow : Int) ≤ settings.maxDepth)
    (hkey : key.changeable? = none) (hnumber : key.isNaN = false) :
    ∃ (pairs : List (Variant × Variant)) (entries : List (Native × Native)) (found : Option Native),
      v.children? = some (pairs.map ofPair) ∧ v.lookup key none = .ok found ∧
      v.unpack settings .shallow = .ok (.map entries) ∧
      (found.isSome = true ↔ Native.contains (.map entries) key = .ok true) ∧
      found = (pairs.find? (hasKey key)).map (fun pair => .variant pair.2.behindBox) ∧
      Native.lookup? key entries =
        (pairs.reverse.find? (hasKey key)).map (fun pair => .variant pair.2) ∧
      (pairs.Pairwise (fun earlier later =>
          ¬(hasKey key earlier = true ∧ hasKey key later = true)) →
        ∀ stored, Native.lookup? key entries = some (.variant stored) →
          found = some (.variant stored.behindBox)) := by
  obtain ⟨type, htyped⟩ := hbuilt.isTyped
  obtain ⟨hreadable, code, valueType, pairs, hwf, rfl, hpairs⟩ :=
    exists_dictionary htyped hdictionary
  have hplain : Native.HasPlainKeys (pairs.map shownPair) :=
    List.forall_mem_map.mpr (fun pair hpair => keyValue?_payload (hpairs pair hpair).1)
  obtain ⟨entries, hentries⟩ : ∃ entries, Native.mapOf (pairs.map shownPair) = .map entries :=
    ⟨_, rfl⟩
  have hunpack : unpack settings .shallow (array (SigType.dictEntry (.basic code) valueType).text
      (pairs.map ofPair)) = .ok (.mapOf (pairs.map shownPair)) :=
    unpackAt_shown (.array hwf)
      ((hasReadableType_iff (.array hwf) (by simp [typeLetters, SigType.letters])).mp hreadable)
      (fun pair hpair => (hpairs pair hpair).1) (by omega)
      (fun hne => by rw [reach_shallow hwf hne] at hfits; omega)
  rw [hentries] at hunpack
  have hlast : Native.lookup? key entries =
      (pairs.reverse.find? (hasKey key)).map (fun pair => .variant pair.2) := by
    rw [Native.lookup?_mapOf hplain hentries, ← List.map_reverse, lookup?_shownPair]
  refine ⟨pairs, entries, _, rfl, ?_, hunpack, ?_, rfl, hlast, ?_⟩
  · rw [lookup_of_isOfType hdictionary]
    exact congrArg Except.ok (findEntry_opened hpairs hnumber)
  · rw [contains_eq_ok_true_iff hkey, hlast, Option.isSome_map, Option.isSome_map,
      List.find?_isSome, List.find?_isSome]
    simp
  · intro honce stored hstored
    -- Where no key comes twice, the last entry with it is the first.
    rw [hlast, find?_reverse_of_pairwise honce] at hstored
    obtain ⟨pair, hpair, hstored⟩ := Option.map_eq_some_iff.mp hstored
    obtain rfl := Native.variant.inj hstored
    rw [hpair]
    rfl

/-- A key of another kind finds the content of a box. -/
theorem lookup_agrees_with_unpacking_boxed :
    ∃ v entries, Built v ∧ v = .array "{iv}" [.entry (.integer .int32 1) (.box (.boolean false))] ∧
      v.isOfType (.text "a\x7b?*\x7d") = .ok true ∧ (v.reach .shallow : Int) ≤ 2 ∧
      (Native.bool true).changeable? = none ∧ (Native.bool true).isNaN = false ∧
      v.lookup (.bool true) none = .ok (some (.variant (.boolean false))) ∧
      v.unpack { maxDepth := 2 } .shallow = .ok (.map entries) ∧
      Native.contains (.map entries) (.bool true) = .ok true := by
  have hkey : Built (.integer .int32 1) := @Built.basic (.integer .int32) (.int 1) _ (by rfl)
  have hcontent : Built (.boolean false) := @Built.basic .boolean (.bool false) _ (by rfl)
  have hbox : Built (.box (.boolean false)) :=
    @Built.box (.variant (.boolean false)) _ (by simpa [Native.variants] using hcontent) (by rfl)
  have hentry := built_entry hkey hbox (by rfl)
  have hbuilt : Built (.array "{iv}" [.entry (.integer .int32 1) (.box (.boolean false))]) := by
    refine @Built.array none
      (.list [.variant (.entry (.integer .int32 1) (.box (.boolean false)))]) _ (by simp) ?_ (by rfl)
    simpa [Native.variants, Native.variantsAll] using hentry
  obtain ⟨pairs, entries, found, -, hlookup, hunpack, hboth, -⟩ :=
    @lookup_agrees_with_unpacking _ (.bool true) { maxDepth := 2 } hbuilt (by rfl) (by decide)
      (by rfl) (by rfl)
  have hfound : lookup (.array "{iv}" [.entry (.integer .int32 1) (.box (.boolean false))])
      (.bool true) none = .ok (some (.variant (.boolean false))) := by rfl
  obtain rfl := Except.ok.inj (hlookup.symm.trans hfound)
  exact ⟨_, entries, hbuilt, rfl, by rfl, by decide, by rfl, by rfl, hfound, hunpack,
    hboth.mp rfl⟩

/-- Of two entries with one key the lookup finds the first, and the map has the last. -/
theorem lookup_repeated_key :
    ∃ v, Built v ∧ v.isOfType (.text "a\x7b?*\x7d") = .ok true ∧ (v.reach .shallow : Int) ≤ 2 ∧
      v.lookup (.text "a") none = .ok (some (.variant (.integer .int32 1))) ∧
      v.unpack {} .shallow = .ok (.map [(.text "a", .variant (.integer .int32 2))]) := by
  have hkey : Built (.text .string "a") := @Built.basic (.text .string) (.text "a") _ (by rfl)
  have hone : Built (.integer .int32 1) := @Built.basic (.integer .int32) (.int 1) _ (by rfl)
  have htwo : Built (.integer .int32 2) := @Built.basic (.integer .int32) (.int 2) _ (by rfl)
  refine ⟨.array "{si}" [.entry (.text .string "a") (.integer .int32 1),
    .entry (.text .string "a") (.integer .int32 2)], ?_, by rfl, by decide, by rfl, by rfl⟩
  refine @Built.array none (.list [.variant (.entry (.text .string "a") (.integer .int32 1)),
    .variant (.entry (.text .string "a") (.integer .int32 2))]) _ (by simp) ?_ (by rfl)
  simpa [Native.variants, Native.variantsAll] using
    ⟨built_entry hkey hone (by rfl), built_entry hkey htwo (by rfl)⟩

end Variant

end TypedVariant
