import TypedVariant.Log.Record
import TypedVariant.Error
import TypedVariant.Proofs.Codec.Plain
import TypedVariant.Proofs.Native.Integers
import TypedVariant.Proofs.Native.Keys
import TypedVariant.Proofs.Unpack.Outcome
import TypedVariant.Proofs.Variant.Printing

/-!
# Fields of log records come back

Fields travel in a dictionary of boxes, which lies three levels around what a field
holds. A variant whose unpacking leaves room for these levels comes back as what it
unpacks to by itself, and text and bytes come back as they are. A field of any other
kind is refused before a key is looked at. The refusal shows the field, so it is told in
other words where the field holds a variant that cannot be printed, or an integer of
too many digits.
-/

namespace TypedVariant

namespace Log

/-- Whether a value is of a kind that fields have. -/
def isFieldValue : Native → Bool
  | .text _ | .blob _ _ | .variant _ => true
  | _ => false

/-- A field as its caller gives it: text without NUL, bytes, or a built variant whose unpacking
leaves the three levels that the dictionary needs. -/
inductive IsField : Native → Prop
  | text {value : String} (hnul : '\x00' ∉ value.toList) : IsField (.text value)
  | blob (kind : BlobKind) (data : List UInt8) : IsField (.blob kind data)
  | variant {w : Variant} (hbuilt : Built w) (hreach : w.reach .recursive ≤ 125) :
      IsField (.variant w)

/-- What a field comes back as: text as it is, bytes as a fixed block, and a variant as what it
unpacks to through all its boxes. -/
def fieldBack : Native → Except Error Native
  | .blob _ data => .ok (.bytes data)
  | .variant w => w.unpack {} .recursive
  | x => .ok x

/-- The entry that a field comes back as, under the key that it was given under. -/
def entryBack (field : String × Native) : Except Error (Native × Native) := do
  return (.text field.1, ← fieldBack field.2)

variable {value x : Native}

/-- A field is packed as a typed variant that leaves three levels, and that by itself comes back
as the field does. -/
theorem IsField.exists_packField (hfield : IsField value) :
    ∃ content, packField value = .ok content ∧ content.IsTyped ∧
      content.reach .recursive ≤ 125 ∧ content.unpack {} .recursive = fieldBack value := by
  cases hfield with
  | @text value hnul =>
      have haccepts : TextCode.string.Accepts value := ⟨by simpa using hnul, rfl⟩
      exact ⟨_, Variant.ofText_eq_ok_iff.mpr ⟨value, rfl, haccepts, rfl⟩, ⟨_, .text haccepts⟩,
        Nat.zero_le _, rfl⟩
  | blob kind data => exact ⟨.bytes data, rfl, ⟨_, .bytes data⟩, Nat.zero_le _, rfl⟩
  | variant hbuilt hreach => exact ⟨_, rfl, hbuilt.isTyped, hreach, rfl⟩

/-- A typed variant within the limit comes to its value exactly if it can be read. -/
theorem unpack_eq_ok_iff {w : Variant} (htyped : w.IsTyped) (hreach : w.reach .recursive ≤ 125) :
    w.unpack {} .recursive = .ok x ↔ w.IsReadable .recursive ∧ x = w.unpacked .recursive := by
  obtain ⟨type, htyped⟩ := htyped
  have hfits : (0 : Int) + (w.reach .recursive : Int) ≤ ({} : Settings).maxDepth := by
    rw [show ({} : Settings).maxDepth = 128 from rfl]
    omega
  exact (Variant.settles_unpackAt htyped {} .recursive 0).eq_ok_iff.trans (and_iff_right hfits)

/-! ## Fields on their way -/

/-- A field with a text for its key, and the variant that it travels as. -/
structure CarriedField where
  key : String
  value : Native
  content : Variant

namespace CarriedField

/-- The field as it is given. -/
def given (field : CarriedField) : Native × Native :=
  (.text field.key, field.value)

/-- The field as it is stored in the dictionary. -/
def stored (field : CarriedField) : Variant :=
  .entry (.text .string field.key) (.box field.content)

/-- The field as it comes back, if its variant can be read. -/
def returned (field : CarriedField) : Native × Native :=
  (.text field.key, field.content.unpacked .recursive)

/-- The type of a stored field. -/
def entryType : SigType :=
  .dictEntry (.basic (.text .string)) .variant

/-- The field is packed as the variant that it travels as, which leaves room for the dictionary and
by itself comes back as the field does. -/
structure Fits (field : CarriedField) : Prop where
  key : '\x00' ∉ field.key.toList
  packed : packField field.value = .ok field.content
  typed : field.content.IsTyped
  reach : field.content.reach .recursive ≤ 125
  back : field.content.unpack {} .recursive = fieldBack field.value

/-- Fields as their caller gives them can travel. -/
theorem exists_fits {fields : List (String × Native)}
    (hfields : ∀ field ∈ fields, '\x00' ∉ field.1.toList ∧ IsField field.2) :
    ∃ carried : List CarriedField, fields = carried.map (fun field => (field.key, field.value)) ∧
      ∀ field ∈ carried, field.Fits := by
  apply exists_eq_map
  rintro ⟨key, value⟩ hfield
  obtain ⟨hkey, hvalue⟩ := hfields _ hfield
  obtain ⟨content, hpacked, htyped, hreach, hback⟩ := hvalue.exists_packField
  exact ⟨⟨key, value, content⟩, ⟨hkey, hpacked, htyped, hreach, hback⟩, rfl⟩

/-- By itself, the field comes back exactly if its variant can be read. -/
theorem Fits.entryBack_eq_ok_iff {field : CarriedField} (hfits : field.Fits)
    {entry : Native × Native} : entryBack (field.key, field.value) = .ok entry ↔
      field.content.IsReadable .recursive ∧ entry = field.returned := by
  rw [entryBack, ← hfits.back, bind_eq_ok_iff]
  simp only [unpack_eq_ok_iff hfits.typed hfits.reach]
  constructor
  · rintro ⟨_, ⟨hreadable, rfl⟩, hentry⟩
    exact ⟨hreadable, (Except.ok.inj hentry).symm⟩
  · rintro ⟨hreadable, rfl⟩
    exact ⟨_, ⟨hreadable, rfl⟩, rfl⟩

variable {carried : List CarriedField}

theorem packFields_given [Codecs] (hfits : ∀ field ∈ carried, field.Fits) :
    packFields (carried.map given) = .ok (.array "\x7bsv\x7d" (carried.map stored)) := by
  have hfields : (carried.map given).mapM (fun entry => do
        return (entry.1, Native.variant (← packField entry.2))) =
      .ok (carried.map fun field => (.text field.key, .variant field.content)) :=
    mapM_map_eq_ok fun field hfield => by rw [given, (hfits field hfield).packed]; rfl
  let parts : List ((Native × Native) × (Variant × Variant)) := carried.map fun field =>
    ((.text field.key, .variant field.content), (.text .string field.key, .box field.content))
  have hparse : Signature.parse ({} : Settings).maxDepth fieldsSignature =
      .ok (.array entryType) := by rfl
  have hpackKeys : ∀ part ∈ parts,
      Pack.Packs {} (0 + 1 + 1) (.basic (.text .string)) part.1.1 part.2.1 :=
    List.forall_mem_map.mpr fun field hfield =>
      (Represents.text ⟨by simpa using (hfits field hfield).key, rfl⟩).packs {} _
  have hpackValues : ∀ part ∈ parts, Pack.Packs {} (0 + 1 + 1) .variant part.1.2 part.2.2 :=
    List.forall_mem_map.mpr fun field _ => .boxed field.content
  have hpack := Represents.packs_dictionary parts hpackKeys hpackValues
  rw [List.map_map, List.map_map] at hpack
  rw [packFields, hfields]
  exact packText_eq_ok_iff.mpr ⟨_, hparse, hpack⟩

theorem hasType_stored (hfits : ∀ field ∈ carried, field.Fits) :
    HasType (.array "\x7bsv\x7d" (carried.map stored)) (.array entryType) := by
  have hentry : entryType.WellFormed false := .dictEntry rfl (.basic _) .variant
  refine .array hentry (by simp [entryType]) ?_
  intro item hitem
  obtain ⟨field, hfield, rfl⟩ := List.mem_map.mp hitem
  obtain ⟨type, hcontent⟩ := (hfits field hfield).typed
  exact .entry (.text ⟨by simpa using (hfits field hfield).key, rfl⟩) (.box hcontent)

/-- The dictionary lies three levels around what each of its fields holds. -/
theorem reach_stored_le (hfits : ∀ field ∈ carried, field.Fits) :
    (Variant.array "\x7bsv\x7d" (carried.map stored)).reach .recursive ≤ 128 := by
  rw [Variant.reach, if_pos (by rfl), Variant.reachBelow_le_iff, List.forall_mem_map]
  intro field hfield
  have hcontent := (hfits field hfield).reach
  simp only [stored, Variant.reach, Opening.opensChildren, Opening.opensBoxes, if_true]
  omega

theorem isReadable_stored_iff :
    (Variant.array "\x7bsv\x7d" (carried.map stored)).IsReadable .recursive ↔
      ∀ field ∈ carried, field.content.IsReadable .recursive := by
  have htype : (Variant.array "\x7bsv\x7d" (carried.map stored)).HasReadableType := by
    refine ⟨.array entryType, ?_⟩
    rw [Variant.typeString, Variant.typeLetters]
    rfl
  rw [Variant.IsReadable, and_iff_right htype, imp_iff_right (by rfl), Variant.areReadable_iff,
    List.forall_mem_map]
  simp [stored, Variant.IsReadable, Opening.opensChildren, Opening.opensBoxes]

theorem unpacked_stored
    (hdistinct : carried.Pairwise (fun earlier later => earlier.key ≠ later.key)) :
    (Variant.array "\x7bsv\x7d" (carried.map stored)).unpacked .recursive =
      .map (carried.map returned) := by
  have hpairs : carried.map stored = (carried.map fun field =>
      (Variant.text .string field.key, Variant.box field.content)).map Variant.ofPair := by
    rw [List.map_map]
    rfl
  have hdifferent : (carried.map returned).Pairwise
      (fun earlier later => earlier.1.same later.1 = false) := by
    rw [List.pairwise_map]
    exact hdistinct.imp (fun hne => Native.same_text_eq_false hne)
  rw [Variant.unpacked, if_pos (by rfl), hpairs, Variant.unpackedEntries_ofPair, List.map_map]
  exact Native.mapOf_of_pairwise hdifferent

/-- The fields come back exactly if the variants that they travel as can all be read. -/
theorem unpackFields_stored_iff (hfits : ∀ field ∈ carried, field.Fits)
    (hdistinct : carried.Pairwise (fun earlier later => earlier.key ≠ later.key)) :
    unpackFields (.variant (.array "\x7bsv\x7d" (carried.map stored))) = .ok x ↔
      (∀ field ∈ carried, field.content.IsReadable .recursive) ∧
        x = .map (carried.map returned) := by
  have hsettles := Variant.settles_unpackAt (hasType_stored hfits) {} .recursive 0
  have hroom :
      (0 : Int) + ((Variant.array "\x7bsv\x7d" (carried.map stored)).reach .recursive : Int) ≤
        ({} : Settings).maxDepth := by
    have hle := reach_stored_le hfits
    rw [show ({} : Settings).maxDepth = 128 from rfl]
    omega
  have hcontainer :
      (Native.variant (.array "\x7bsv\x7d" (carried.map stored))).unpackContainer {} .recursive 0 =
        (Variant.array "\x7bsv\x7d" (carried.map stored)).unpackAt {} .recursive 0 := by
    rw [Native.unpackContainer, Variant.checkDepth_of_le (by decide)]
    rfl
  rw [unpackFields, hcontainer, bind_eq_ok_iff]
  simp only [hsettles.eq_ok_iff, isReadable_stored_iff, unpacked_stored hdistinct, hroom, true_and]
  constructor
  · rintro ⟨_, ⟨hreadable, rfl⟩, hx⟩
    exact ⟨hreadable, (Except.ok.inj hx).symm⟩
  · rintro ⟨hreadable, rfl⟩
    exact ⟨_, ⟨hreadable, rfl⟩, rfl⟩

end CarriedField

/-! ## Fields of other kinds -/

theorem exists_packField (hkind : isFieldValue value = true)
    (hnul : ∀ text, value = .text text → '\x00' ∉ text.toList) :
    ∃ content, packField value = .ok content := by
  cases value with
  | text text =>
      have haccepts : TextCode.string.Accepts text := ⟨by simpa using hnul text rfl, rfl⟩
      exact ⟨_, Variant.ofText_eq_ok_iff.mpr ⟨text, rfl, haccepts, rfl⟩⟩
  | blob kind data => exact ⟨.bytes data, rfl⟩
  | variant w => exact ⟨w, rfl⟩
  | _ => cases hkind

/-- How a value of another kind is refused: in words that show it, if it can be shown. -/
def refusal (value : Native) : Error :=
  match value.displayShown with
  | .ok _ => .unsupportedField value
  | .error e => e

theorem packField_of_other (hkind : isFieldValue value = false) :
    packField value = .error (refusal value) := by
  unfold packField
  split
  next => cases hkind
  next => cases hkind
  next => cases hkind
  next =>
    rw [refusal, Native.displayShown]
    cases value.printFault? <;> rfl

theorem refusal_of_shown {shown : String} (hshown : value.displayShown = .ok shown) :
    (refusal value).kind = .unsupportedValue ∧
      (refusal value).message = "Unsupported value " ++ shown ++
        "; structured fields support Variant, bytes, and str values" := by
  have htext : value.shown = shown := by
    rw [Native.displayShown] at hshown
    split at hshown
    next => cases hshown
    next => exact Except.ok.inj hshown
  rw [refusal, hshown, ← htext]
  exact ⟨rfl, rfl⟩

/-- The first field of another kind decides how fields are refused, whatever the keys are. -/
theorem packFields_of_first [Codecs] {fields : List (Native × Native)} {first : Native × Native}
    (hnul : ∀ entry ∈ fields, ∀ text, entry.2 = .text text → '\x00' ∉ text.toList)
    (hfirst : fields.find? (fun entry => !isFieldValue entry.2) = some first) :
    packFields fields = .error (refusal first.2) := by
  obtain ⟨hkind, before, after, rfl, hbefore⟩ := List.find?_eq_some_iff_append.mp hfirst
  have hrefused : (before ++ first :: after).mapM (fun entry => do
      return (entry.1, Native.variant (← packField entry.2))) = .error (refusal first.2) := by
    refine mapM_eq_error_of_first (fun entry hentry => ?_) ?_
    · obtain ⟨content, hcontent⟩ := exists_packField (by simpa using hbefore entry hentry)
        (hnul entry (List.mem_append_left _ hentry))
      exact ⟨_, by rw [hcontent]; rfl⟩
    · rw [packField_of_other (by simpa using hkind)]
      rfl
  rw [packFields, hrefused]
  rfl

/-- Fields under different keys come back under their keys, in their order: text and bytes as they
are, and a variant as what it unpacks to by itself, so that they are refused only if one of the
variants is. Others of which one is of another kind are not packed, whatever their keys are: they
are unsupported if the first such field can be shown. With built variants in it, this field can be
shown unless it holds an integer of too many digits, which is then what the fields are refused
for. -/
theorem fields_come_back [Codecs] (fields : List (String × Native))
    (others : List (Native × Native)) :
    (fields.Pairwise (fun earlier later => earlier.1 ≠ later.1) →
      (∀ field ∈ fields, '\x00' ∉ field.1.toList ∧ IsField field.2) →
        ∃ packed, packFields (fields.map fun field => (.text field.1, field.2)) = .ok packed ∧
          ∀ x, unpackFields (.variant packed) = .ok x ↔
            ∃ entries, fields.mapM entryBack = .ok entries ∧ x = .map entries) ∧
    ((∀ entry ∈ others, ∀ text, entry.2 = .text text → '\x00' ∉ text.toList) →
      (∃ entry ∈ others, isFieldValue entry.2 = false) →
        ∃ first, others.find? (fun entry => !isFieldValue entry.2) = some first ∧
          (∀ shown, first.2.displayShown = .ok shown → ∃ e, packFields others = .error e ∧
            e.kind = .unsupportedValue ∧ e.message = "Unsupported value " ++ shown ++
              "; structured fields support Variant, bytes, and str values") ∧
          (∀ e, first.2.displayShown = .error e → packFields others = .error e) ∧
          ((∀ v ∈ first.2.variants, Built v) →
            (first.2.IsShort → ∃ shown, first.2.displayShown = .ok shown) ∧
            (¬first.2.IsShort → first.2.displayShown = .error .overlongInteger))) := by
  refine ⟨fun hdistinct hfields => ?_, fun hnul hother => ?_⟩
  · obtain ⟨carried, rfl, hfits⟩ := CarriedField.exists_fits hfields
    rw [List.pairwise_map] at hdistinct
    rw [List.map_map]
    refine ⟨_, CarriedField.packFields_given hfits, fun x => ?_⟩
    have hback : ∀ field ∈ carried, ∀ entry,
        entryBack (field.key, field.value) = .ok entry ↔
          field.content.IsReadable .recursive ∧ entry = field.returned :=
      fun field hfield _ => (hfits field hfield).entryBack_eq_ok_iff
    rw [CarriedField.unpackFields_stored_iff hfits hdistinct]
    simp only [mapM_map_eq_ok_iff hback, and_assoc, exists_and_left, exists_eq_left]
  · obtain ⟨first, hfirst⟩ : ∃ first,
        others.find? (fun entry => !isFieldValue entry.2) = some first := by
      rw [← Option.isSome_iff_exists, List.find?_isSome]
      simpa using hother
    have hrefused := packFields_of_first hnul hfirst
    refine ⟨first, hfirst, fun shown hshown => ?_, fun e he => ?_, fun hbuilt => ?_⟩
    · exact ⟨_, hrefused, refusal_of_shown hshown⟩
    · rw [hrefused, refusal, he]
    · rw [Native.displayShown_of_isTyped fun v hv => (hbuilt v hv).isTyped]
      exact ⟨fun hshort => ⟨_, if_pos hshort⟩, fun hlong => if_neg hlong⟩

section

open scoped Standard

/-- A box is opened on its way. A list is unsupported where it stands, before the key of its field,
which is no text, is looked at. -/
theorem fields_come_back_boxed :
    Built (.box (.integer .int32 7)) ∧
    (∃ packed, packFields [(.text "A", .text "x"), (.text "B", .blob .view [1, 2]),
        (.text "C", .variant (.box (.integer .int32 7)))] = .ok packed ∧
      unpackFields (.variant packed) =
        .ok (.map [(.text "A", .text "x"), (.text "B", .bytes [1, 2]), (.text "C", .int 7)])) ∧
    isFieldValue (.list [.int 1]) = false ∧
    ∃ e, packFields [(.text "A", .text "x"), (.int 3, .list [.int 1])] = .error e ∧
      e.kind = .unsupportedValue ∧ e.message =
        "Unsupported value [1]; structured fields support Variant, bytes, and str values" := by
  have hcontent : Built (.integer .int32 7) := @Built.basic (.integer .int32) (.int 7) _ (by rfl)
  have hbox : Built (.box (.integer .int32 7)) := by
    refine @Built.box (.variant (.integer .int32 7)) _ ?_ (by rfl)
    simpa [Native.variants] using hcontent
  refine ⟨hbox, ?_, by rfl, ?_⟩
  · obtain ⟨packed, hpacked, hunpacked⟩ := (fields_come_back
      [("A", .text "x"), ("B", .blob .view [1, 2]), ("C", .variant (.box (.integer .int32 7)))]
      []).1 (by simp) (by
        simp only [List.forall_mem_cons]
        exact ⟨⟨by decide, .text (by decide)⟩, ⟨by decide, .blob _ _⟩,
          ⟨by decide, .variant hbox (by decide)⟩, by simp⟩)
    exact ⟨packed, hpacked, (hunpacked _).mpr ⟨_, by rfl, rfl⟩⟩
  · obtain ⟨first, hfirst, hshown, -⟩ := (fields_come_back []
      [(.text "A", .text "x"), (.int 3, .list [.int 1])]).2
      (by simp) ⟨_, List.mem_cons_of_mem _ List.mem_cons_self, by rfl⟩
    obtain rfl : (.int 3, .list [.int 1]) = first := by
      simpa [isFieldValue] using hfirst
    exact hshown "[1]" (by rfl)

/-- A list with a variant that cannot be printed is refused, but not as unsupported. Nor is an
integer of too many digits. -/
theorem field_that_cannot_be_shown :
    (isFieldValue (.list [.variant (.foreignBox ⟨"i", 0⟩)]) = false ∧
      ∃ e, packFields [(.text "A", .list [.variant (.foreignBox ⟨"i", 0⟩)])] = .error e ∧
        e.kind = .missingOperation) ∧
    (isFieldValue (.int (10 ^ 4300)) = false ∧
      ∃ e, packFields [(.text "A", .int (10 ^ 4300))] = .error e ∧ e.kind = .value) ∧
    ErrorKind.missingOperation ≠ .unsupportedValue ∧ ErrorKind.value ≠ .unsupportedValue := by
  have hlong : Numeral.isOverlong (10 ^ 4300) = true := Numeral.isOverlong_pow
  have hshown : (Native.int (10 ^ 4300)).displayShown = .error .overlongInteger := by
    rw [Native.displayShown_of_isTyped (Native.isTyped_of_variants_eq_nil rfl), if_neg]
    rw [Native.isShort_int_iff, hlong]
    exact Bool.noConfusion
  refine ⟨⟨by rfl, _, by rfl, by rfl⟩, ⟨rfl, .overlongInteger, ?_, rfl⟩, by decide, by decide⟩
  have hfirst : [(Native.text "A", Native.int (10 ^ 4300))].find?
      (fun entry => !isFieldValue entry.2) = some (.text "A", .int (10 ^ 4300)) :=
    List.find?_cons_of_pos rfl
  have hnul : ∀ entry ∈ [(Native.text "A", Native.int (10 ^ 4300))],
      ∀ text, entry.2 = .text text → '\x00' ∉ text.toList := by
    rintro entry hentry text htext
    obtain rfl := List.mem_singleton.mp hentry
    cases htext
  rw [packFields_of_first hnul hfirst, refusal, hshown]

end

end Log

end TypedVariant
