import TypedVariant.Proofs.Pack.Blob
import TypedVariant.Proofs.Variant.Children
import TypedVariant.Proofs.Variant.Numbers

/-!
# Short ways of packing

Lists of strings and of bytes are not packed element by element, and a dictionary of
boxed values can be made without any signature. The short ways check their elements by
other means, but they come to the same: the same variant is made, or the first element
that does not fit is refused by an error of the same kind.
-/

namespace TypedVariant

/-- Both attempts make the same variant, or fail by errors of the same kind. -/
def SameOutcome (a b : Except Error Variant) : Prop :=
  a.mapError Error.kind = b.mapError Error.kind

/-- An array that is built of elements which are packed one by one. -/
def packOneByOne [Codecs] (settings : Settings) (element : String) (items : List Native) :
    Except Error Variant := do
  let children ← items.mapM (pack settings (.text element))
  Variant.ofArray (some (.text element)) (.list (children.map .variant))

variable {settings : Settings} {x : Native} {items : List Native}

/-! ## One by one -/

theorem pack_basic [Codecs] (hdepth : 0 ≤ settings.maxDepth) (code : BasicCode) :
    pack settings (.text (SigType.basic code).text) x =
      match x.asVariant? with
      | some _ => .error (.unboxedVariant code)
      | none => Variant.ofBasic code x :=
  (pack_text (.basic code) hdepth).trans (Pack.packAs_basic hdepth)

theorem hasType_of_pack_basic [Codecs] {code : BasicCode} {v : Variant}
    (hdepth : 0 ≤ settings.maxDepth)
    (hpacked : pack settings (.text (SigType.basic code).text) x = .ok v) :
    HasType v (.basic code) := by
  rw [pack_basic hdepth] at hpacked
  split at hpacked
  next => cases hpacked
  next => exact hasType_ofBasic hpacked

/-- Elements of a basic type are all of that type, so nothing is refused when they are put
together. -/
theorem packOneByOne_basic [Codecs] (hdepth : 0 ≤ settings.maxDepth) (code : BasicCode) :
    packOneByOne settings (SigType.basic code).text items =
      (items.mapM (pack settings (.text (SigType.basic code).text))).map fun children =>
        if (SigType.basic code).text = "y" then .bytes (Variant.byteValues children)
        else .array (SigType.basic code).text children := by
  rw [packOneByOne]
  cases hpacked : items.mapM (pack settings (.text (SigType.basic code).text)) with
  | error e => rfl
  | ok children =>
      obtain ⟨parts, -, rfl, hparts⟩ := mapM_eq_ok_iff.mp hpacked
      have hnames : TypeSource.Names (.text (SigType.basic code).text) (.basic code) :=
        .text (show (0 : Int) ≤ maxDepthLimit by decide)
      exact Variant.ofArray_of_iterate (x := .list _) hnames (.basic code)
        (List.forall_mem_map.mpr fun part hpart => hasType_of_pack_basic hdepth (hparts part hpart))
        rfl

/-- Elements that are packed alike make arrays alike. -/
theorem sameOutcome_mapM_map {f g : Native → Except Error Variant} {wrap : List Variant → Variant}
    (hitems : ∀ item ∈ items, SameOutcome (f item) (g item)) :
    SameOutcome ((items.mapM f).map wrap) ((items.mapM g).map wrap) := by
  unfold SameOutcome
  rw [mapError_map, mapError_map, mapError_mapM, mapError_mapM, mapM_congr hitems]

/-! ## Strings -/

/-- A variant is no element of strings in either way. -/
theorem sameOutcome_ofText_pack [Codecs] (hdepth : 0 ≤ settings.maxDepth) :
    SameOutcome (Variant.ofText .string x) (pack settings (.text "s") x) := by
  change SameOutcome _ (pack settings (.text (SigType.basic (.text .string)).text) x)
  rw [pack_basic hdepth]
  cases x <;> rfl

theorem sameOutcome_strings [Codecs] (hdepth : 1 ≤ settings.maxDepth)
    (hitems : x.sequence? = some items) :
    SameOutcome (pack settings (.text "as") x) (packOneByOne settings "s" items) := by
  have hpack : pack settings (.text "as") x = Variant.ofStrings items := by
    refine (pack_text (.array (.basic (.text .string))) hdepth).trans ?_
    rw [Pack.packAs_array hdepth, Pack.packFlat?, hitems]
  have hbasic : 0 ≤ settings.maxDepth := by omega
  change SameOutcome _ (packOneByOne settings (SigType.basic (.text .string)).text items)
  rw [hpack, packOneByOne_basic hbasic]
  exact sameOutcome_mapM_map fun item _ => sameOutcome_ofText_pack hbasic

/-! ## Bytes -/

/-- An integer or a truth value. -/
def Native.IsWhole (x : Native) : Prop :=
  (∃ z : Int, x = .int z) ∨ ∃ b : Bool, x = .bool b

theorem ofBasic_byte_of_isWhole (hwhole : x.IsWhole) :
    (Variant.ofBasic (.integer .byte) x).mapError Error.kind =
      (x.toByte.mapError fun _ => ErrorKind.valueRange).map Variant.ofByte := by
  obtain ⟨z, rfl⟩ | ⟨b, rfl⟩ := hwhole
  · rw [Variant.ofBasic, Variant.ofInteger, Native.asInteger_of_numericValue? (z := z) .byte rfl,
      Native.toByte]
    by_cases hbyte : 0 ≤ z ∧ z < 256
    · have hback : ((UInt8.ofNat z.toNat).toNat : Int) = z := by
        rw [UInt8.toNat_ofNat']
        omega
      have hrange : ¬(z < IntegerCode.byte.low ∨ IntegerCode.byte.high < z) := by
        simp only [IntegerCode.low, IntegerCode.high]
        omega
      rw [if_pos hbyte, if_neg hrange]
      exact congrArg (fun w => Except.ok (Variant.integer .byte w)) hback.symm
    · have hrange : z < IntegerCode.byte.low ∨ IntegerCode.byte.high < z := by
        simp only [IntegerCode.low, IntegerCode.high]
        omega
      rw [if_neg hbyte, if_pos hrange]
      rfl
  · cases b <;> rfl

theorem toByte_range_only (hwhole : x.IsWhole) :
    FailsOnly (fun fault => fault = Native.BytesFault.range) x.toByte := by
  obtain ⟨z, rfl⟩ | ⟨b, rfl⟩ := hwhole
  · rw [Native.toByte]
    split_ifs
    · exact .ok _
    · exact .error rfl
  · exact .ok _

theorem byteBlob_of_isWhole [Codecs] (encoding : String) (hx : x = .list items ∨ x = .tuple items)
    (hwhole : ∀ item ∈ items, item.IsWhole) :
    (byteBlob encoding x).mapError Error.kind =
      (items.mapM Native.toByte).mapError fun _ => ErrorKind.valueRange := by
  have hfails : FailsOnly (fun fault => fault = Native.BytesFault.range) (items.mapM Native.toByte) :=
    .mapM fun item hitem => toByte_range_only (hwhole item hitem)
  have hbytes : x.toBytes = items.mapM Native.toByte := by
    rcases hx with rfl | rfl <;> rfl
  cases hdata : items.mapM Native.toByte with
  | ok data =>
      rw [hdata] at hbytes
      rcases hx with rfl | rfl <;> simp [byteBlob, hbytes, Except.mapError]
  | error fault =>
      obtain rfl := hfails fault hdata
      rw [hdata] at hbytes
      rcases hx with rfl | rfl <;> simp [byteBlob, hbytes, Except.mapError, Error.kind]

theorem sameOutcome_bytes [Codecs] (hdepth : 1 ≤ settings.maxDepth)
    (hx : x = .list items ∨ x = .tuple items)
    (hwhole : ∀ item ∈ items, item.IsWhole) :
    SameOutcome (pack settings (.text "ay") x) (packOneByOne settings "y" items) := by
  have hbasic : 0 ≤ settings.maxDepth := by omega
  have hitem : ∀ item ∈ items,
      (pack settings (.text (SigType.basic (.integer .byte)).text) item).mapError Error.kind =
        (item.toByte.mapError fun _ => ErrorKind.valueRange).map Variant.ofByte := by
    intro item hitem
    rw [← ofBasic_byte_of_isWhole (hwhole item hitem), pack_basic hbasic]
    obtain ⟨z, rfl⟩ | ⟨b, rfl⟩ := hwhole item hitem <;> rfl
  -- Both sides are brought to the bytes of the items, with every fault told as one of range.
  change SameOutcome _ (packOneByOne settings (SigType.basic (.integer .byte)).text items)
  rw [SameOutcome, pack_bytes hdepth, packOneByOne_basic hbasic, mapError_map, mapError_map,
    mapError_mapM, mapM_congr hitem, byteBlob_of_isWhole _ hx hwhole, mapM_map_answer,
    ← mapError_mapM]
  cases items.mapM Native.toByte with
  | error fault => rfl
  | ok data =>
      exact congrArg (fun blob => Except.ok (Variant.bytes blob))
        (Variant.byteValues_map_ofByte data).symm

/-! ## Dictionaries of boxed values -/

/-- The type of an entry that holds a boxed value under a string. -/
def boxedEntryType : SigType :=
  .dictEntry (.basic (.text .string)) .variant

/-- An entry of a map from text to variants. -/
def textEntry (entry : String × Variant) : Native × Native :=
  (.text entry.1, .variant entry.2)

/-- What such an entry is packed as, if its text is free of NUL. -/
def packedEntry (entry : String × Variant) : Except Error Variant :=
  (Variant.ofText .string (.text entry.1)).map (.entry · (.box entry.2))

theorem typeString_of_packedEntry {entry : String × Variant} {v : Variant}
    (hpacked : packedEntry entry = .ok v) : v.typeString = boxedEntryType.text := by
  obtain ⟨key, hkey, rfl⟩ := map_eq_ok_iff.mp hpacked
  obtain ⟨value, -, -, rfl⟩ := Variant.ofText_eq_ok_iff.mp hkey
  rfl

theorem packAs_textEntry [Codecs] (hdepth : 2 ≤ settings.maxDepth) (entry : String × Variant) :
    Pack.packAs settings boxedEntryType 1 boxedEntryType
      (.tuple [(textEntry entry).1, (textEntry entry).2]) = packedEntry entry := by
  have hfits : (1 : Int) + 1 + 0 ≤ settings.maxDepth := by omega
  rw [boxedEntryType, Pack.packAs_dictEntry hdepth, Native.sequence?]
  dsimp only
  rw [Pack.packAs_basic hfits, Pack.packAs_variant hfits]
  simp only [textEntry, Native.asVariant?, Variant.ofBasic, packedEntry]
  cases Variant.ofText .string (.text entry.1) <;> rfl

/-- Without a signature, an entry is put together by the constructors of its parts. -/
theorem bind_ofEntry (entry : String × Variant) :
    (do
      let key ← Variant.ofText .string (textEntry entry).1
      let value ← Variant.ofContent (textEntry entry).2
      Variant.ofEntry (.variant key) (.variant value)) = packedEntry entry := by
  rw [packedEntry, textEntry]
  cases hkey : Variant.ofText .string (.text entry.1) with
  | error e => rfl
  | ok key =>
      obtain ⟨value, -, -, rfl⟩ := Variant.ofText_eq_ok_iff.mp hkey
      rfl

theorem pack_textEntries [Codecs] (hdepth : 2 ≤ settings.maxDepth)
    (entries : List (String × Variant)) :
    pack settings (.text "a\x7bsv\x7d") (.map (entries.map textEntry)) =
      (entries.mapM packedEntry).map (.array boxedEntryType.text) := by
  have hwf : (SigType.array boxedEntryType).WellFormed false :=
    .array (.dictEntry rfl (.basic _) .variant)
  have helements : Pack.elementsOf boxedEntryType (.map (entries.map textEntry)) =
      .ok (entries.map fun entry => .tuple [(textEntry entry).1, (textEntry entry).2]) := by
    rw [boxedEntryType, Pack.elementsOf, Native.entryPairs, List.map_map]
    rfl
  have hflat : Pack.packFlat? settings boxedEntryType (.map (entries.map textEntry)) = none := rfl
  refine (pack_text hwf hdepth).trans ?_
  rw [Pack.packAs_array hdepth, hflat, helements]
  dsimp only [Except.bind]
  rw [Pack.packAllAs_eq_mapM, List.mapM_map]
  exact congrArg (Except.map _) (mapM_congr fun entry _ => packAs_textEntry hdepth entry)

theorem ofMap_textEntries (entries : List (String × Variant)) :
    Variant.ofMap (entries.map textEntry) =
      (entries.mapM packedEntry).map (.array boxedEntryType.text) := by
  rw [Variant.ofMap, List.mapM_map]
  refine (congrArg (· >>= _) (mapM_congr fun entry _ => bind_ofEntry entry)).trans ?_
  cases hpacked : entries.mapM packedEntry with
  | error e => rfl
  | ok packed =>
      obtain ⟨parts, -, rfl, hparts⟩ := mapM_eq_ok_iff.mp hpacked
      have hnames : TypeSource.Names (.text boxedEntryType.text) boxedEntryType :=
        .text (show (1 : Int) ≤ maxDepthLimit by decide)
      exact Variant.ofArray_of_typeString (x := .list _) hnames (.dictEntry rfl (.basic _) .variant)
        (List.forall_mem_map.mpr fun part hpart => typeString_of_packedEntry (hparts part hpart)) rfl

/-! ## All short ways -/

/-- Where the signatures fit the limit, every short way of packing comes to the same as packing
element by element: for lists and tuples of anything as strings, for those of integers and truth
values as bytes, and for maps from text to variants as dictionaries of boxed values. -/
theorem short_ways_follow_elements [Codecs] {settings : Settings} (hdepth : 1 ≤ settings.maxDepth) :
    (∀ (x : Native) (items : List Native), x = .list items ∨ x = .tuple items →
      SameOutcome (pack settings (.text "as") x) (packOneByOne settings "s" items) ∧
      ((∀ item ∈ items, item.IsWhole) →
        SameOutcome (pack settings (.text "ay") x) (packOneByOne settings "y" items))) ∧
    (2 ≤ settings.maxDepth → ∀ entries : List (String × Variant),
      SameOutcome (Variant.ofMap (entries.map textEntry))
        (pack settings (.text "a\x7bsv\x7d") (.map (entries.map textEntry)))) := by
  refine ⟨fun x items hx => ⟨?_, sameOutcome_bytes hdepth hx⟩, fun hroom entries => ?_⟩
  · apply sameOutcome_strings hdepth
    rcases hx with rfl | rfl <;> rfl
  · rw [ofMap_textEntries, pack_textEntries hroom]
    rfl

section

open scoped Standard

theorem short_ways_follow_elements_mixed :
    1 ≤ ({} : Settings).maxDepth ∧
      SameOutcome (pack {} (.text "as") (.list [.text "a", .variant (.boolean true)]))
        (packOneByOne {} "s" [.text "a", .variant (.boolean true)]) ∧
      SameOutcome (pack {} (.text "ay") (.tuple [.bool true, .int 300]))
        (packOneByOne {} "y" [.bool true, .int 300]) ∧
      SameOutcome (Variant.ofMap ([("a", .boolean true)].map textEntry))
        (pack {} (.text "a\x7bsv\x7d") (.map ([("a", .boolean true)].map textEntry))) := by
  have hdepth : 1 ≤ ({} : Settings).maxDepth := by decide
  have hwhole : ∀ item ∈ [Native.bool true, .int 300], item.IsWhole :=
    List.forall_mem_cons.mpr ⟨.inr ⟨true, rfl⟩, List.forall_mem_singleton.mpr (.inl ⟨300, rfl⟩)⟩
  exact ⟨hdepth, ((short_ways_follow_elements hdepth).1 _ _ (.inl rfl)).1,
    ((short_ways_follow_elements hdepth).1 _ _ (.inr rfl)).2 hwhole,
    (short_ways_follow_elements hdepth).2 (by decide) _⟩

end

end TypedVariant
