import TypedVariant.Proofs.Codec.Mapping
import TypedVariant.Variant.Access

/-!
# Views of packed maps

A map with strings as its keys is packed as a dictionary of boxes. The view of the
dictionary shows the map again: the same keys in the same order, and under each key what
the value there was boxed as. An expected type is compared with the type of what is in the
box, which is the one that the signature inferred from the value spells.
-/

namespace TypedVariant

/-- An entry of a map with a string as its key, and the variant that its value is boxed as. -/
structure BoxedEntry where
  key : String
  value : Native
  content : Variant

namespace BoxedEntry

/-- The entry as it stands in the map that is packed. -/
def given (entry : BoxedEntry) : Native × Native :=
  (.text entry.key, entry.value)

/-- The entry as it is stored in the dictionary. -/
def stored (entry : BoxedEntry) : Variant :=
  .entry (.text .string entry.key) (.box entry.content)

/-- The value is boxed by itself, as a variant of the type that is inferred from it. -/
structure Follows [Codecs] (settings : Settings) (entry : BoxedEntry) : Prop where
  packs : packText settings "v" entry.value = .ok (.box entry.content)
  infers : entry.value.inferSignature = .ok entry.content.typeString

variable {settings : Settings} {boxed : List BoxedEntry}

/-! ## Keys and lookups -/

theorem keys_given : (boxed.map given).map Prod.fst = boxed.map (fun entry => .text entry.key) := by
  rw [List.map_map]
  rfl

theorem given_same (key : String) :
    (fun entry : BoxedEntry => (given entry).1.same (.text key)) = fun entry => entry.key == key := by
  funext entry
  simp [given, Native.same, Native.isSameNaN, Native.equal]

theorem contains_given (key : String) :
    Native.contains (.map (boxed.map given)) (.text key) =
      .ok (boxed.find? (fun entry => entry.key == key)).isSome := by
  have hany : ((boxed.map given).map Prod.fst).any (·.same (.text key)) =
      boxed.any (fun entry => (given entry).1.same (.text key)) := by
    rw [List.any_map, List.any_map]
    rfl
  rw [Native.contains, Native.isAmongKeys, hany, given_same, List.isSome_find?]
  rfl

theorem dictionaryKeys_stored (element : String) :
    Native.dictionaryKeys (.array element (boxed.map stored)) =
      boxed.map (fun entry => .text entry.key) := by
  rw [Native.dictionaryKeys, Variant.children?, Option.getD_some, List.filterMap_map,
    ← List.filterMap_eq_map]
  rfl

/-- The map is searched for an entry with the key. -/
theorem lookup?_given (key : String) :
    Native.lookup? (.text key) (boxed.map given) =
      (boxed.find? (fun entry => entry.key == key)).map value := by
  rw [Native.lookup?, List.find?_map, Option.map_map]
  exact congrArg (fun p => (boxed.find? p).map value) (given_same key)

/-- The dictionary is searched for the same entry. -/
theorem findEntry_stored (key : String) :
    Variant.findEntry? (.text key) (boxed.map stored) =
      (boxed.find? (fun entry => entry.key == key)).map (fun entry => .box entry.content) := by
  induction boxed with
  | nil => rfl
  | cons entry rest ih =>
      rw [List.map_cons, stored, Variant.findEntry?, ih, List.find?_cons, Variant.payload,
        Native.equal]
      cases entry.key == key <;> rfl

theorem typeString_stored :
    (Variant.array "\x7bsv\x7d" (boxed.map stored)).typeString = "a\x7bsv\x7d" := by
  rw [Variant.typeString, Variant.typeLetters]
  rfl

/-- A lookup finds what is boxed under the key. Boxes themselves are found only if they are asked
for, and anything else is compared with the type of what is in them. -/
theorem lookup_stored {key : String} {expected : Option TypeSource}
    (hexpected : expected ≠ some (.text "v")) :
    (Variant.array "\x7bsv\x7d" (boxed.map stored)).lookup (.text key) expected =
      match boxed.find? (fun entry => entry.key == key), expected with
      | none, _ => .ok none
      | some entry, none => .ok (some (.variant entry.content))
      | some entry, some pattern =>
        (Signature.typeMatches maxDepthLimit (.text entry.content.typeString) pattern).map
          fun fits => if fits then some (.variant entry.content) else none := by
  have hdictionary : (Variant.array "\x7bsv\x7d" (boxed.map stored)).isOfType
      (.text "a\x7b?*\x7d") = .ok true := by
    rw [Variant.isOfType, typeString_stored]
    rfl
  -- Unless boxes are asked for, each value is taken out of the one that it was packed in.
  have hopened (content : Variant) :
      Variant.opened expected (.box content) = .variant content := by
    have hkeeps : Variant.keepsBox expected = false := by
      unfold Variant.keepsBox
      split
      next pattern => simpa using hexpected
      next => rfl
    simp [Variant.opened, hkeeps]
  rw [Variant.lookup, hdictionary, Variant.children?, Option.getD_some, findEntry_stored]
  cases boxed.find? (fun entry => entry.key == key) with
  | none => rfl
  | some entry =>
      simp only [Option.map_some, hopened]
      cases expected with
      | none => rfl
      | some pattern =>
          simp only [Variant.foundOfType, Variant.isOfType]
          cases Signature.typeMatches maxDepthLimit (.text entry.content.typeString) pattern with
          | error e => rfl
          | ok fits => cases fits <;> rfl

theorem of_stored :
    Dictionary.of (.variant (.array "\x7bsv\x7d" (boxed.map stored))) =
      .ok ⟨.array "\x7bsv\x7d" (boxed.map stored)⟩ := by
  have hview : (Variant.array "\x7bsv\x7d" (boxed.map stored)).isOfType
      (.text "a\x7bs*\x7d") = .ok true := by
    rw [Variant.isOfType, typeString_stored]
    rfl
  rw [Dictionary.of, hview]
  rfl

end BoxedEntry

/-- A map with strings as its keys is packed as a dictionary of boxes, entry by entry. -/
theorem exists_boxedEntries [Codecs] {settings : Settings} (hchecked : settings.IsChecked)
    {entries : List (Native × Native)} {v : Variant}
    (hkeys : ∀ entry ∈ entries, ∃ key, entry.1 = .text key)
    (hpack : pack settings (.text "a\x7bsv\x7d") (.map entries) = .ok v) :
    ∃ boxed : List BoxedEntry, entries = boxed.map BoxedEntry.given ∧
      v = .array "\x7bsv\x7d" (boxed.map BoxedEntry.stored) ∧
      ∀ entry ∈ boxed, entry.Follows settings := by
  have hwf : (SigType.array (.dictEntry (.basic (.text .string)) .variant)).WellFormed false :=
    .array (.dictEntry rfl (.basic _) .variant)
  obtain ⟨hadmits, hpacks⟩ := Pack.packs_of_packText hwf hpack
  obtain ⟨-, hentry⟩ := Signature.admits_array_iff.mp hadmits
  obtain ⟨-, hkey, hvalue⟩ := Signature.admits_dictEntry_iff.mp hentry
  obtain ⟨packed, rfl, rfl, hpacked⟩ := hpacks.exists_packedEntries hchecked.2 hkey hvalue
  obtain ⟨pairs, rfl, hpairs⟩ : ∃ pairs : List (BoxedEntry × PackedEntry),
      packed = pairs.map Prod.snd ∧ ∀ pair ∈ pairs, pair.1.given = pair.2.given ∧
        pair.1.stored = .entry pair.2.packedKey pair.2.packedValue ∧ pair.1.Follows settings := by
    apply exists_eq_map
    intro entry hmem
    obtain ⟨⟨-, hpacksValue, -⟩, hbuilt, -⟩ := hpacked entry hmem
    obtain ⟨key, hgiven⟩ := hkeys _ (List.mem_map_of_mem hmem)
    obtain ⟨content, hcontent, hinfers⟩ :=
      (Pack.packs_of_packText .variant hpacksValue).2.exists_content
    rw [hcontent] at hpacksValue
    have hkeyText : entry.key = .text key := hgiven
    obtain ⟨value, hvalueText, -, hpackedKey⟩ := Variant.ofText_eq_ok_iff.mp hbuilt
    obtain rfl : key = value := Native.text.inj (hkeyText.symm.trans hvalueText)
    refine ⟨(⟨key, entry.value, content⟩, entry), ⟨?_, ?_, ⟨hpacksValue, hinfers⟩⟩, rfl⟩
    · exact Prod.ext hkeyText.symm rfl
    · rw [BoxedEntry.stored, hpackedKey, hcontent]
  refine ⟨pairs.map Prod.fst, ?_, ?_, List.forall_mem_map.mpr fun pair hpair => (hpairs pair hpair).2.2⟩
  · rw [List.map_map, List.map_map]
    exact List.map_congr_left fun pair hpair => (hpairs pair hpair).1.symm
  · rw [List.map_map, List.map_map]
    exact congrArg _ (List.map_congr_left fun pair hpair => (hpairs pair hpair).2.1.symm)

/-- The view of what a map was packed as behaves as the map. It has its keys, in its order and
number, and no others. Without an expected type, or with one that is not that of boxes itself, a
lookup finds nothing under any other text; under a key it finds the variant that the value there is
boxed as, unless a type is expected that the one inferred from the value does not match. -/
theorem view_shows_packed_map [Codecs] {settings : Settings} (hchecked : settings.IsChecked)
    {entries : List (Native × Native)} {v : Variant}
    (hkeys : ∀ entry ∈ entries, ∃ key, entry.1 = .text key)
    (hpack : pack settings (.text "a\x7bsv\x7d") (.map entries) = .ok v) :
    ∃ d, Dictionary.of (.variant v) = .ok d ∧ d.keys = entries.map Prod.fst ∧
      (∀ mark, (Native.dictionary d.variant mark).iterate = .ok (entries.map Prod.fst)) ∧
      d.size = entries.length ∧
      (∀ key : String, d.contains (.text key) = Native.contains (.map entries) (.text key)) ∧
      (∀ (key : String) (expected : Option TypeSource), expected ≠ some (.text "v") →
        Native.lookup? (.text key) entries = none →
          d.lookupValue (.text key) expected = .ok none) ∧
      ∀ (key : String) (value : Native), Native.lookup? (.text key) entries = some value →
        ∃ signature content, value.inferSignature = .ok signature ∧
          packText settings "v" value = .ok (.box content) ∧ content.typeString = signature ∧
          d.lookupValue (.text key) none = .ok (some (.variant content)) ∧
          ∀ pattern, pattern ≠ .text "v" → d.lookupValue (.text key) (some pattern) =
            (Signature.typeMatches maxDepthLimit (.text signature) pattern).map
              fun fits => if fits then some (.variant content) else none := by
  obtain ⟨boxed, rfl, rfl, hboxed⟩ := exists_boxedEntries hchecked hkeys hpack
  refine ⟨_, BoxedEntry.of_stored, ?_, fun mark => ?_, ?_, fun key => ?_,
    fun key expected hexpected hnone => ?_, fun key value hvalue => ?_⟩
  · rw [Dictionary.keys, BoxedEntry.dictionaryKeys_stored, BoxedEntry.keys_given]
  · rw [Native.iterate, BoxedEntry.dictionaryKeys_stored, BoxedEntry.keys_given]
  · simp [Dictionary.size, Variant.children?]
  · rw [Dictionary.contains, Dictionary.lookupValue, BoxedEntry.lookup_stored (by simp),
      BoxedEntry.contains_given]
    cases boxed.find? (fun entry => entry.key == key) <;> rfl
  · rw [BoxedEntry.lookup?_given, Option.map_eq_none_iff] at hnone
    rw [Dictionary.lookupValue, BoxedEntry.lookup_stored hexpected, hnone]
  · rw [BoxedEntry.lookup?_given] at hvalue
    obtain ⟨entry, hfound, rfl⟩ := Option.map_eq_some_iff.mp hvalue
    obtain ⟨hpacks, hinfers⟩ := hboxed entry (List.mem_of_find?_eq_some hfound)
    refine ⟨_, entry.content, hinfers, hpacks, rfl, ?_, fun pattern hpattern => ?_⟩
    · rw [Dictionary.lookupValue, BoxedEntry.lookup_stored (by simp), hfound]
    · rw [Dictionary.lookupValue, BoxedEntry.lookup_stored (by simpa using hpattern), hfound]

section

open scoped Standard

/-- A plain value beside a box that was made before. One box is opened, the one that was made for
the entry, so there is a box under its key where no type is expected. -/
theorem view_shows_packed_map_boxed :
    ∃ entries v d, entries = [(Native.text "a", Native.int 1),
        (.text "b", .variant (.box (.boolean true)))] ∧
      ({} : Settings).IsChecked ∧ (∀ entry ∈ entries, ∃ key, entry.1 = .text key) ∧
      pack {} (.text "a\x7bsv\x7d") (.map entries) = .ok v ∧ Dictionary.of (.variant v) = .ok d ∧
      d.keys = [.text "a", .text "b"] ∧
      d.lookupValue (.text "b") none = .ok (some (.variant (.box (.boolean true)))) ∧
      d.lookupValue (.text "b") (some (.text "b")) = .ok none ∧
      d.lookupValue (.text "c") (some (.text "b")) = .ok none := by
  have hkeys : ∀ entry ∈ [(Native.text "a", Native.int 1),
      (.text "b", .variant (.box (.boolean true)))], ∃ key, entry.1 = .text key := by simp
  have hfirst : Pack.Packs {} 1 (.dictEntry (.basic (.text .string)) .variant)
      (.tuple [.text "a", .int 1]) (.entry (.text .string "a") (.box (.integer .int64 1))) :=
    .dictEntry rfl (.basic rfl rfl) (.implied rfl (by decide) (.basic rfl rfl))
  have hsecond : Pack.Packs {} 1 (.dictEntry (.basic (.text .string)) .variant)
      (.tuple [.text "b", .variant (.box (.boolean true))])
      (.entry (.text .string "b") (.box (.box (.boolean true)))) :=
    .dictEntry rfl (.basic rfl rfl) (.boxed _)
  have hpacks : Pack.Packs {} 0 (.array (.dictEntry (.basic (.text .string)) .variant))
      (.map [(.text "a", .int 1), (.text "b", .variant (.box (.boolean true)))])
      (.array "\x7bsv\x7d" [.entry (.text .string "a") (.box (.integer .int64 1)),
        .entry (.text .string "b") (.box (.box (.boolean true)))]) :=
    .array [(_, _), (_, _)] rfl rfl (by simpa using ⟨hfirst, hsecond⟩)
  have hpack := packText_eq_ok_iff.mpr ⟨_, (by rfl : Signature.parse _ "a\x7bsv\x7d" = _), hpacks⟩
  obtain ⟨d, hview, hshown, -, -, -, hnone, hsome⟩ :=
    view_shows_packed_map Settings.isChecked_default hkeys hpack
  have hstored : packText {} "v" (.variant (.box (.boolean true))) =
      .ok (.box (.box (.boolean true))) := packText_eq_ok_iff.mpr ⟨.variant, by rfl, .boxed _⟩
  obtain ⟨signature, content, hsignature, hbox, -, hfound, hexpected⟩ :=
    hsome "b" (.variant (.box (.boolean true))) (by rfl)
  obtain rfl := Except.ok.inj hsignature
  obtain rfl := Variant.box.inj (Except.ok.inj (hstored.symm.trans hbox))
  exact ⟨_, _, d, rfl, Settings.isChecked_default, hkeys, hpack, hview, hshown, hfound,
    (hexpected (.text "b") (by simp)).trans (by rfl), hnone "c" _ (by simp) (by rfl)⟩

end

end TypedVariant
