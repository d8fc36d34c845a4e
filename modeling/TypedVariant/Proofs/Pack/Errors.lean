import Mathlib.Tactic.SplitIfs
import TypedVariant.Pack.Value
import TypedVariant.Proofs.Native.Parts
import TypedVariant.Proofs.Pack.Step

/-!
# Which errors packing ends with

Callers of packing are prepared for five kinds of errors. Two of them are about the
signature: its text, and its depth. The other three are about a value that does not
fit its type, by its shape, its kind or its range. Nothing else goes wrong as long as
text has a known encoding and ranges can be listed: the items of a range are counted
before anything is packed, and a count beyond a machine word or beyond all memory is
an error of its own, which the packer lets pass. The nine encodings are codecs of text
whatever else is installed.
-/

namespace TypedVariant

/-- Text is encoded by a codec of text, which fails only for want of characters. -/
def Settings.HasTextEncoding [Codecs] (settings : Settings) : Prop :=
  '\x00' ∉ settings.textEncoding.toList ∧
    ∃ encode, Codecs.find? settings.textEncoding = some (.text encode) ∧
      ∀ text message, encode text ≠ .error (.failed message)

/-- Every codec of one of the nine encodings is such a codec. -/
theorem Settings.hasTextEncoding_of_find? [Codecs] {settings : Settings} {encoding : Encoding}
    (hnul : '\x00' ∉ settings.textEncoding.toList)
    (hfind : Codecs.find? settings.textEncoding = some encoding.codec) :
    settings.HasTextEncoding := by
  refine ⟨hnul, _, hfind, fun text message hfailed => ?_⟩
  obtain ⟨gap, -, hgap⟩ := mapError_eq_error_iff.mp hfailed
  cases hgap

theorem Settings.hasTextEncoding_default [Codecs] : ({} : Settings).HasTextEncoding :=
  hasTextEncoding_of_find? (by decide) (@Codecs.find?_of_nameKey _ _ .utf8 (by decide))

example [Codecs] : ∀ name ∈ ["utf-8", "ascii", "latin-1", "utf-16", "utf-16-le", "utf-16-be",
    "utf-32", "utf-32-le", "utf-32-be"], ({ textEncoding := name } : Settings).HasTextEncoding := by
  have hkeys : ∀ name ∈ ["utf-8", "ascii", "latin-1", "utf-16", "utf-16-le", "utf-16-be",
      "utf-32", "utf-32-le", "utf-32-be"], '\x00' ∉ name.toList ∧
      ∃ encoding ∈ Encoding.all, Encoding.nameKey name = encoding.ownKey := by decide +kernel
  intro name hname
  obtain ⟨hnul, encoding, -, hkey⟩ := hkeys name hname
  exact Settings.hasTextEncoding_of_find? hnul (Codecs.find?_of_nameKey hkey)

namespace Native

/-- A range that cannot be listed is met in a value. -/
inductive HoldsLongRange : Native → Prop
  | range {start stop step : Int} (hlong : listLimit ≤ rangeSize start stop step) :
      HoldsLongRange (.range start stop step)
  | item {x item : Native} {items : List Native} (hitems : x.sequence? = some items)
      (hitem : item ∈ items) (hholds : HoldsLongRange item) : HoldsLongRange x
  | key {entries : List (Native × Native)} {entry : Native × Native} (hentry : entry ∈ entries)
      (hholds : HoldsLongRange entry.1) : HoldsLongRange (.map entries)
  | value {entries : List (Native × Native)} {entry : Native × Native} (hentry : entry ∈ entries)
      (hholds : HoldsLongRange entry.2) : HoldsLongRange (.map entries)

theorem handedDown_not_holdsLongRange : HandedDown (fun x => ¬ HoldsLongRange x) where
  list hnone _ hitem hholds := hnone (.item rfl hitem hholds)
  tuple hnone _ hitem hholds := hnone (.item rfl hitem hholds)
  set hnone _ hitem hholds := hnone (.item rfl hitem hholds)
  stream hnone _ hitem hholds := hnone (.item rfl hitem hholds)
  map hnone _ hentry := ⟨fun hholds => hnone (.key hentry hholds),
    fun hholds => hnone (.value hentry hholds)⟩
  int _ := by
    rintro (_ | ⟨hitems, _, _⟩)
    cases hitems
  text _ := by
    rintro (_ | ⟨hitems, _, _⟩)
    cases hitems
  pair hkey hvalue := by
    rintro (_ | ⟨hitems, hitem, hholds⟩)
    obtain rfl := Option.some.inj hitems
    rcases List.mem_pair.mp hitem with rfl | rfl
    · exact hkey hholds
    · exact hvalue hholds

end Native

namespace Pack

/-- An error that is about a value: its shape, its kind, its range, or a range in it that cannot be
listed. -/
inductive IsDueTo (x : Native) (e : Error) : Prop
  | shape (hkind : e.kind = .variantType)
  | kind (hkind : e.kind = .unsupportedValue)
  | range (hkind : e.kind = .valueRange)
  | listing (hkind : e.kind = .overflow ∨ e.kind = .memory) (hlong : x.HoldsLongRange)

variable {settings : Settings} {x : Native} {e : Error}

namespace IsDueTo

theorem kind_ne_grammar (hdue : IsDueTo x e) : e.kind ≠ .grammar := by
  rintro hgrammar
  cases hdue with
  | shape hkind | kind hkind | range hkind => simp [hgrammar] at hkind
  | listing hkind => simp [hgrammar] at hkind

/-- What is due to a part is due to the whole. -/
theorem of_part {part : Native} (hdue : IsDueTo part e)
    (hpart : part.HoldsLongRange → x.HoldsLongRange) : IsDueTo x e := by
  cases hdue with
  | shape hkind => exact .shape hkind
  | kind hkind => exact .kind hkind
  | range hkind => exact .range hkind
  | listing hkind hlong => exact .listing hkind (hpart hlong)

end IsDueTo

/-! ## What is wrong with a value -/

theorem asInteger_failsOnly (code : IntegerCode) :
    FailsOnly (IsDueTo x) (x.asInteger code) := by
  unfold Native.asInteger
  split
  next => exact .error (.kind rfl)
  next =>
    split_ifs
    · exact .error (.kind rfl)
    · exact .error (.range rfl)
    · exact .ok _

theorem asDouble_failsOnly : FailsOnly (IsDueTo x) x.asDouble := by
  -- What is asked beside the kind of the value are its nearest double and its numeral.
  have hnearest (y : Native) (z : Int) (nearest : Option Double) :
      FailsOnly (IsDueTo x) (Native.asDouble.ofNearest y z nearest) := by
    unfold Native.asDouble.ofNearest
    split
    next => exact .error (.range rfl)
    next =>
      split_ifs
      · exact .ok _
      · exact .error (.kind rfl)
  have hnumeral (y : Native) (data : List UInt8) :
      FailsOnly (IsDueTo x) (Native.asDouble.ofNumeral y data) := by
    unfold Native.asDouble.ofNumeral
    split
    next => exact .error (.kind rfl)
    next =>
      split_ifs
      · exact .ok _
      · exact .error (.kind rfl)
  unfold Native.asDouble
  split
  next => exact .ok _
  next => exact hnumeral _ _
  next => exact hnumeral _ _
  next => exact hnearest _ _ _
  next => exact hnearest _ _ _
  next => exact .error (.kind rfl)

theorem ofText_failsOnly (code : TextCode) : FailsOnly (IsDueTo x) (Variant.ofText code x) := by
  have hcheck (value : String) : FailsOnly (IsDueTo x) (Variant.checkText code value) := by
    unfold Variant.checkText
    split
    next => exact .ok _
    next =>
      split_ifs
      · exact .ok _
      · exact .error (.range rfl)
    next =>
      split_ifs
      · exact .ok _
      · exact .error (.range rfl)
  unfold Variant.ofText
  split
  next value =>
    split
    next => exact .error (.range rfl)
    next => exact (hcheck value).bind (fun _ _ => .ok _)
  next => exact .error (.kind rfl)

/-- A constructor of basic variants finds fault with nothing but the value. -/
theorem ofBasic_failsOnly (code : BasicCode) : FailsOnly (IsDueTo x) (Variant.ofBasic code x) := by
  cases code with
  | boolean => exact .ok _
  | integer code => exact (asInteger_failsOnly code).map
  | double => exact asDouble_failsOnly.map
  | text code => exact ofText_failsOnly code

/-- What does not stand for a sequence is no collection of its kind, or a long range. -/
theorem isDueTo_sequenceError (use : SequenceUse) (hnone : x.sequence? = none) :
    IsDueTo x (sequenceError use x) := by
  cases x with
  | range start stop step =>
      -- Both errors are for too many items, which is more than a list can have.
      rw [Native.sequence?] at hnone
      have hlong : Native.listLimit ≤ Native.rangeSize start stop step := by
        by_contra hshort
        rw [if_pos (Nat.not_le.mp hshort)] at hnone
        cases hnone
      rw [sequenceError]
      split_ifs
      · exact .listing (.inl rfl) (.range hlong)
      · exact .listing (.inr rfl) (.range hlong)
  | _ => exact .shape rfl

/-- Values other than integers are refused as bytes for their items, unless they are ranges that
cannot be listed. -/
theorem toBytes_failsOnly (hint : ∀ value, x ≠ .int value) :
    FailsOnly (fun fault => fault = .kind ∨ fault = .range ∨ fault ≠ .count ∧ x.HoldsLongRange)
      x.toBytes := by
  have hbyte (item : Native) : FailsOnly (fun fault => fault = .kind ∨ fault = .range ∨
      fault ≠ .count ∧ x.HoldsLongRange) item.toByte := by
    unfold Native.toByte
    split
    next => exact .ok _
    next =>
      split_ifs
      · exact .ok _
      · exact .error (.inr (.inl rfl))
    next => exact .error (.inl rfl)
  cases x with
  | int value => exact absurd rfl (hint value)
  | blob | bool => exact .ok _
  | list | tuple | set | stream => exact .mapM (fun item _ => hbyte item)
  | map => exact .mapM (fun entry _ => hbyte entry.1)
  | dictionary => exact .mapM (fun item _ => hbyte item)
  | range start stop step =>
      -- All three limits lie above the one of lists.
      have hlong (limit : Nat) (hlimit : Native.listLimit ≤ limit)
          (hsize : limit ≤ Native.rangeSize start stop step) :
          (Native.range start stop step).HoldsLongRange := .range (Nat.le_trans hlimit hsize)
      unfold Native.toBytes
      dsimp only
      split_ifs with hword hblob hmemory
      · exact .error (.inr (.inr ⟨by simp, hlong _ (by decide) hword⟩))
      · exact .error (.inr (.inr ⟨by simp, hlong Native.longestBlob.toNat (by decide) (by omega)⟩))
      · exact .error (.inr (.inr ⟨by simp, hlong Native.memoryLimit.toNat (by decide) (by omega)⟩))
      · exact .mapM (fun item _ => hbyte item)
  | variant v =>
      rw [Native.toBytes]
      split
      next => exact .ok _
      next => exact .error (.inl rfl)
  | null | double | text | object | sigType | foreign => exact .error (.inl rfl)

theorem encodeText_failsOnly [Codecs] (hencoding : settings.HasTextEncoding) (text : List Char) :
    FailsOnly (IsDueTo x) (encodeText settings.textEncoding text) := by
  obtain ⟨hnul, encode, hfind, hfailed⟩ := hencoding
  intro e he
  rw [encodeText, if_neg (by simpa using hnul), hfind] at he
  obtain ⟨refusal, hrefused, rfl⟩ := mapError_eq_error_iff.mp he
  cases refusal with
  | unencodable message => exact .range rfl
  | failed message => exact absurd hrefused (hfailed text message)

theorem byteBlob_failsOnly [Codecs] (hencoding : settings.HasTextEncoding) :
    FailsOnly (IsDueTo x) (byteBlob settings.textEncoding x) := by
  unfold byteBlob
  split
  next value => exact (encodeText_failsOnly hencoding _).map
  next => exact .error (.kind rfl)
  next => exact .error (.kind rfl)
  next => exact .error (.kind rfl)
  next => exact .error (.kind rfl)
  next => exact .error (.kind rfl)
  next hint _ _ =>
    have hfaults := toBytes_failsOnly hint
    split
    next => exact .ok _
    next => exact .error (.range rfl)
    next => exact .error (.kind rfl)
    next hcount => simpa using hfaults _ hcount
    next hcount =>
      have hlong := by simpa using hfaults _ hcount
      exact .error (.listing (.inl rfl) hlong)
    next hlength =>
      have hlong := by simpa using hfaults _ hlength
      exact .error (.listing (.inl rfl) hlong)
    next hmemory =>
      have hlong := by simpa using hfaults _ hmemory
      exact .error (.listing (.inr rfl) hlong)

theorem packFlat?_failsOnly [Codecs] (hencoding : settings.HasTextEncoding) {element : SigType}
    {packed : Except Error Variant} (hflat : packFlat? settings element x = some packed) :
    FailsOnly (IsDueTo x) packed := by
  unfold packFlat? at hflat
  split at hflat
  next =>
    obtain rfl := Option.some.inj hflat
    split
    next items hitems =>
      refine FailsOnly.map (.mapM (fun item hitem => ?_))
      exact (ofText_failsOnly .string).imp (fun e he => he.of_part (.item hitems hitem))
    next hnone => exact .error (isDueTo_sequenceError _ hnone)
  next =>
    obtain rfl := Option.some.inj hflat
    exact (byteBlob_failsOnly hencoding).map
  next => cases hflat

theorem elementsOf_failsOnly (element : SigType) :
    FailsOnly (IsDueTo x) (elementsOf element x) := by
  unfold elementsOf
  split
  next =>
    split
    next => exact .ok _
    next => exact .error (.shape rfl)
  next =>
    split
    next => exact .ok _
    next hnone => exact .error (isDueTo_sequenceError _ hnone)

/-- A long range in an element of an array is one in the value. -/
theorem holdsLongRange_of_elementsOf {element : SigType} {items : List Native} {item : Native}
    (hitems : elementsOf element x = .ok items) (hitem : item ∈ items)
    (hlong : item.HoldsLongRange) : x.HoldsLongRange := by
  by_contra hnone
  exact Native.handedDown_not_holdsLongRange.elementsOf hnone hitems item hitem hlong

/-! ## What is wrong with a signature or a value -/

/-- An error of packing: about the signature, about the depth, or about the value. -/
inductive IsPackingError (x : Native) (e : Error) : Prop
  | grammar (hkind : e.kind = .grammar)
  | depth (hkind : e.kind = .depthLimit)
  | value (hdue : IsDueTo x e)

theorem IsPackingError.of_part {part : Native} (hpacking : IsPackingError part e)
    (hpart : part.HoldsLongRange → x.HoldsLongRange) : IsPackingError x e := by
  cases hpacking with
  | grammar hkind => exact .grammar hkind
  | depth hkind => exact .depth hkind
  | value hdue => exact .value (hdue.of_part hpart)

theorem isPackingError_refusal (maxDepth : Int) (signature : String)
    (refusal : Signature.Refusal) : IsPackingError x (refusal.error maxDepth signature) := by
  cases refusal with
  | fault cause => exact .grammar rfl
  | tooDeep => exact .depth rfl

theorem missingMembers_failsOnly (signature : String) (depth : Int) (text : List Char) :
    FailsOnly (IsPackingError x) (missingMembers settings signature depth text) := by
  unfold missingMembers
  split
  next => exact .ok _
  next => exact .ok _
  next => exact .error (isPackingError_refusal _ _ _)

theorem arrayOf_failsOnly (element : String) (items : List Variant) :
    FailsOnly (IsPackingError x) (Variant.arrayOf element items) := by
  unfold Variant.arrayOf
  split
  next => exact .error (.value (.shape rfl))
  next => exact .ok _

/-- Whatever is quoted and wherever the value lies, packing it against a text fails by the text, the
depth or the value. -/
def FailsAsPacking [Codecs] (settings : Settings) (x : Native) (text : List Char) : Prop :=
  ∀ signature depth simple,
    FailsOnly (IsPackingError x) (packValue settings signature depth simple text x).1

/-- What a part of a value fails by is what the value fails by. -/
theorem FailsAsPacking.of_part [Codecs] {part : Native} {text : List Char}
    (hfails : FailsAsPacking settings part text)
    (hpart : part.HoldsLongRange → x.HoldsLongRange) (signature : String) (depth : Int)
    (simple : Bool) :
    FailsOnly (IsPackingError x) (packValue settings signature depth simple text part).1 :=
  (hfails signature depth simple).imp (fun _ he => he.of_part hpart)

variable {signature : String} {depth : Int} {rest : List Char}

theorem packValue_maybe_failsOnly [Codecs] (hfits : depth ≤ settings.maxDepth)
    (hpresent : FailsAsPacking settings x rest) :
    FailsOnly (IsPackingError x) (packValue settings signature depth false ('m' :: rest) x).1 := by
  rw [packValue_maybe hfits]
  split
  next =>
    split
    next => exact .error (isPackingError_refusal _ _ _)
    next => exact .error (.grammar rfl)
    next => exact .ok _
  next => exact (hpresent _ _ _).map

theorem packValue_array_failsOnly [Codecs] (hencoding : settings.HasTextEncoding)
    (hfits : depth ≤ settings.maxDepth)
    (hlower : ∀ y text, y.height < x.height → FailsAsPacking settings y text) :
    FailsOnly (IsPackingError x) (packValue settings signature depth false ('a' :: rest) x).1 := by
  rw [packValue_array hfits]
  split
  next => exact .error (isPackingError_refusal _ _ _)
  next element _ _ =>
    dsimp only
    split
    next packed hflat => exact (packFlat?_failsOnly hencoding hflat).imp (fun _ he => .value he)
    next =>
      have helements := (elementsOf_failsOnly element).imp
        (fun (e : Error) (he : IsDueTo x e) => IsPackingError.value he)
      refine helements.bind (fun items hitems => ?_)
      refine FailsOnly.bind ?_ (fun vs _ => arrayOf_failsOnly _ _)
      rw [packEach_eq_mapM]
      refine FailsOnly.mapM (fun item hitem => ?_)
      exact (hlower item _ (height_lt_of_elementsOf hitems item hitem)).of_part
        (holdsLongRange_of_elementsOf hitems hitem) _ _ _

/-- Members fail one by one, or by their number. -/
theorem packMembers_failsOnly [Codecs] {items : List Native}
    (hitems : ∀ item ∈ items, ∀ text,
      FailsOnly (IsPackingError x) (packValue settings signature depth false text item).1)
    (text : List Char) (packed given : Nat) :
    FailsOnly (IsPackingError x)
      (packMembers settings signature depth text packed given items).1 := by
  induction items generalizing text packed with
  | nil =>
      rw [packMembers]
      exact .ok _
  | cons item rest ih =>
      obtain ⟨hitem, hrest⟩ := List.forall_mem_cons.mp hitems
      rw [packMembers.eq_def]
      dsimp only
      split
      next => exact .error (.grammar rfl)
      next => exact .error (.value (.shape rfl))
      next c left _ =>
        split
        next e left he => exact .error (hitem _ e (by rw [he]))
        next => exact (ih hrest _ _).map

theorem packValue_tuple_failsOnly [Codecs] (hfits : depth ≤ settings.maxDepth)
    (hlower : ∀ y text, y.height < x.height → FailsAsPacking settings y text) :
    FailsOnly (IsPackingError x) (packValue settings signature depth false ('(' :: rest) x).1 := by
  rw [packValue_tuple hfits]
  split
  next hnone => exact .error (.value (isDueTo_sequenceError _ hnone))
  next items hitems =>
    have hmembers := packMembers_failsOnly (fun item hitem text =>
      (hlower item text (height_lt_of_sequence? hitems item hitem)).of_part
        (.item hitems hitem) signature (depth + 1) false) rest 0 items.length
    split
    next e left he => exact .error (hmembers e (by rw [he]))
    next members left _ =>
      have hmissing : FailsOnly (IsPackingError x)
          (missingMembers settings signature (depth + 1) left) := missingMembers_failsOnly _ _ _
      split
      next e he => exact .error (hmissing e he)
      next => exact .ok _
      next => exact .error (.value (.shape rfl))

theorem packValue_dictEntry_failsOnly [Codecs] (hfits : depth ≤ settings.maxDepth)
    (hlower : ∀ y text, y.height < x.height → FailsAsPacking settings y text) :
    FailsOnly (IsPackingError x) (packValue settings signature depth false ('{' :: rest) x).1 := by
  rw [packValue_dictEntry hfits]
  split
  next hnone => exact .error (.value (isDueTo_sequenceError _ hnone))
  next keyItem valueItem hitems =>
    have hitem (item : Native) (hitem : item ∈ [keyItem, valueItem]) (simple : Bool)
        (text : List Char) : FailsOnly (IsPackingError x)
          (packValue settings signature (depth + 1) simple text item).1 :=
      (hlower item text (height_lt_of_sequence? hitems item hitem)).of_part
        (.item hitems hitem) signature (depth + 1) simple
    split
    next e _ he => exact .error (hitem keyItem (by simp) true rest e (by rw [he]))
    next _ left _ =>
      split
      next e _ he => exact .error (hitem valueItem (by simp) false left e (by rw [he]))
      next => exact .ok _
      next => exact .error (.grammar rfl)
  next => exact .error (.value (.shape rfl))

/-- Packing fails by the text, the depth or the value, and by nothing else. -/
theorem failsAsPacking [Codecs] (hencoding : settings.HasTextEncoding) (x : Native)
    (text : List Char) :
    FailsAsPacking settings x text := by
  induction x, text using packing_induction with
  | step x text hlower hmaybe hbox =>
      intro signature depth simple
      rcases packValue_cases settings signature depth simple text x with
        hdeep | ⟨hfits, ⟨e, stop, hkind, hrefused⟩ | ⟨code, rest, rfl⟩ |
          ⟨rfl, c, rest, rfl, hbegins⟩⟩
      · rw [packValue_tooDeep hdeep]
        exact .error (.depth rfl)
      · rw [hrefused _ hfits]
        exact .error (.grammar hkind)
      · rw [packValue_basic hfits]
        split
        next => exact .error (.value (.kind rfl))
        next => exact (ofBasic_failsOnly code).imp (fun _ he => .value he)
      · rcases hbegins with rfl | rfl | rfl | rfl | rfl
        · rw [packValue_box hfits]
          split
          next => exact .ok _
          next => exact .error (.value (.kind rfl))
          next type _ htype => exact (hbox rest type rfl htype _ _ _).map
        · exact packValue_maybe_failsOnly hfits (hmaybe rest rfl)
        · exact packValue_array_failsOnly hencoding hfits hlower
        · exact packValue_tuple_failsOnly hfits hlower
        · exact packValue_dictEntry_failsOnly hfits hlower

theorem IsPackingError.isRecoverable_or (hpacking : IsPackingError x e) :
    e.kind.isRecoverable = true ∨ (e.kind = .overflow ∨ e.kind = .memory) ∧ x.HoldsLongRange := by
  cases hpacking with
  | grammar hkind | depth hkind => exact .inl (by rw [hkind]; rfl)
  | value hdue =>
      cases hdue with
      | shape hkind | kind hkind | range hkind => exact .inl (by rw [hkind]; rfl)
      | listing hkind hlong => exact .inr ⟨hkind, hlong⟩

/-- Beside what goes wrong on the way, a whole signature may be no text, empty, or too long. -/
theorem pack_failsOnly [Codecs] (hencoding : settings.HasTextEncoding) (signature x : Native) :
    FailsOnly (IsPackingError x) (pack settings signature x) := by
  have htextOf : FailsOnly (IsPackingError x) (Signature.textOf signature) := by
    unfold Signature.textOf
    split
    next => exact .ok _
    next => exact .error (.grammar rfl)
  refine htextOf.bind (fun text _ => ?_)
  have hvalue := failsAsPacking hencoding x text.toList text 0 false
  unfold packText
  split_ifs
  · exact .error (.grammar rfl)
  · split
    next => exact .ok _
    next => exact .error (.grammar rfl)
    next e _ he => exact .error (hvalue e (by rw [he]))

end Pack

end TypedVariant
