import TypedVariant.Proofs.Attempt
import TypedVariant.Proofs.Signature.Parsing
import TypedVariant.Unpack

/-!
# One step of unpacking

Within the limit of the depth every variant is opened by its constructor. Only
an array asks for its type, which is read back from its own type string: whether
it is an array of entries is settled by the type that the string was written
from. The entries give a map in their own order as long as no key comes twice.
-/

namespace TypedVariant

namespace SigType

/-- Whether a type is that of dictionary entries. -/
def IsEntry (type : SigType) : Prop :=
  ∃ key value, type = .dictEntry key value

/-- The pattern of dictionaries. -/
def dictionaryPattern : SigType :=
  .array (.dictEntry (.wildcard .anyBasic) (.wildcard .anyType))

/-- The pattern of dictionaries covers the arrays of entries and no other array. -/
theorem dictionaryPattern_covers_iff {element : SigType} (hwf : element.WellFormed false) :
    dictionaryPattern.covers (.array element) = true ↔ element.IsEntry := by
  constructor
  · intro hcovers
    cases element with
    | dictEntry key value => exact ⟨key, value, rfl⟩
    | _ => simp [dictionaryPattern, covers] at hcovers
  · rintro ⟨key, value, rfl⟩
    cases hwf with
    | dictEntry hbasic hkey _ =>
        obtain ⟨code, rfl⟩ := hkey.exists_code_of_isBasic hbasic
        rfl

end SigType

namespace Native

/-- A key that is not there yet comes last. -/
theorem insert_of_not_same {key value : Native} {entries : List (Native × Native)}
    (hkeys : ∀ entry ∈ entries, entry.1.same key = false) :
    insert key value entries = entries ++ [(key, value)] := by
  induction entries with
  | nil => rfl
  | cons entry rest ih =>
      obtain ⟨hentry, hrest⟩ := List.forall_mem_cons.mp hkeys
      rw [insert, hentry, ih hrest]
      rfl

/-- Storing pairs behind entries with other keys keeps all of them, in order. -/
theorem foldl_insert {entries pairs : List (Native × Native)}
    (hkeys : (entries ++ pairs).Pairwise (fun earlier later => earlier.1.same later.1 = false)) :
    pairs.foldl (fun entries pair => insert pair.1 pair.2 entries) entries = entries ++ pairs := by
  induction pairs generalizing entries with
  | nil => simp
  | cons pair rest ih =>
      -- An entry that is already there is compared with the new key, in this order.
      have hbefore : ∀ entry ∈ entries, entry.1.same pair.1 = false := fun entry hentry =>
        (List.pairwise_append.mp hkeys).2.2 entry hentry pair List.mem_cons_self
      rw [List.foldl_cons, insert_of_not_same hbefore, ih]
      · simp
      · simpa using hkeys

/-- Pairs of which no two have the same key are the entries of their map. -/
theorem mapOf_of_pairwise {pairs : List (Native × Native)}
    (hkeys : pairs.Pairwise (fun earlier later => earlier.1.same later.1 = false)) :
    mapOf pairs = .map pairs := by
  rw [mapOf, foldl_insert (by simpa using hkeys), List.nil_append]

end Native

namespace Variant

variable {settings : Settings} {opening : Opening} {depth : Int}

theorem checkDepth_of_le (hfits : depth ≤ settings.maxDepth) :
    checkDepth settings depth = .ok () := by
  rw [checkDepth, if_neg (by omega)]

/-- A variant of an array type within the greatest depth is a dictionary where its elements are
entries. -/
theorem isOfType_dictionary {v : Variant} {element : SigType}
    (hwf : (SigType.array element).WellFormed false)
    (hfits : ((SigType.array element).nesting : Int) ≤ maxDepthLimit)
    (hletters : v.typeLetters = (SigType.array element).letters) :
    v.isOfType (.text "a\x7b?*\x7d") =
      .ok (SigType.dictionaryPattern.covers (.array element)) := by
  have htype : Signature.parse maxDepthLimit v.typeString = .ok (.array element) := by
    rw [Signature.parse_eq_ok_iff, Signature.admits_zero_iff, typeString, String.toList_ofList]
    exact ⟨⟨hwf, hfits⟩, hletters⟩
  have hpattern : Signature.parsePattern maxDepthLimit "a\x7b?*\x7d" =
      .ok SigType.dictionaryPattern := by rfl
  rw [isOfType, Signature.typeMatches, Signature.typeOf, Signature.patternOf, htype, hpattern]
  rfl

theorem unpackAll_eq_mapM (items : List Variant) :
    unpackAll settings opening depth items = items.mapM (unpackAt settings opening depth) := by
  induction items with
  | nil => rfl
  | cons v rest ih => rw [unpackAll, ih, List.mapM_cons]

/-- A variant of a list unpacks to the value beside it, so the list unpacks to the values. -/
theorem unpackAll_of_parts {parts : List (Native × Variant)}
    (hparts : ∀ part ∈ parts, part.2.unpackAt settings opening depth = .ok part.1) :
    unpackAll settings opening depth (parts.map Prod.snd) = .ok (parts.map Prod.fst) := by
  rw [unpackAll_eq_mapM, mapM_eq_ok_iff]
  refine ⟨parts.map Prod.swap, by simp, by simp, ?_⟩
  intro part hpart
  obtain ⟨swapped, hswapped, rfl⟩ := List.mem_map.mp hpart
  exact hparts swapped hswapped

/-! ## Children that are opened -/

/-- A maybe unpacks to what its content unpacks to. -/
theorem unpackAt_just (hopens : opening.opensChildren = true) (hfits : depth ≤ settings.maxDepth)
    (content : Variant) :
    (just content).unpackAt settings opening depth =
      content.unpackAt settings opening (depth + 1) := by
  rw [unpackAt, checkDepth_of_le hfits, hopens]
  rfl

/-- An opened box unpacks to what its content unpacks to. -/
theorem unpackAt_box (hopens : opening.opensBoxes = true) (hfits : depth ≤ settings.maxDepth)
    (content : Variant) :
    (box content).unpackAt settings opening depth =
      content.unpackAt settings opening (depth + 1) := by
  rw [unpackAt, checkDepth_of_le hfits, hopens]
  rfl

/-- Entries whose keys and values unpack give pairs of what these unpack to. -/
theorem unpackEntries_of_parts (hopens : opening.opensChildren = true)
    (hfits : depth ≤ settings.maxDepth) {parts : List ((Native × Native) × (Variant × Variant))}
    (hkeys : ∀ part ∈ parts, part.2.1.unpackAt settings opening (depth + 1) = .ok part.1.1)
    (hvalues : ∀ part ∈ parts, part.2.2.unpackAt settings opening (depth + 1) = .ok part.1.2) :
    unpackEntries settings opening depth (parts.map (fun part => .entry part.2.1 part.2.2)) =
      .ok (parts.map Prod.fst) := by
  induction parts with
  | nil => rfl
  | cons part rest ih =>
      obtain ⟨hkey, hkeys⟩ := List.forall_mem_cons.mp hkeys
      obtain ⟨hvalue, hvalues⟩ := List.forall_mem_cons.mp hvalues
      rw [List.map_cons, unpackEntries, checkDepth_of_le hfits, ih hkeys hvalues, hkey, hvalue,
        hopens]
      rfl

/-- An array of entries unpacks to the map that is made of them. -/
theorem unpackAt_entries (hopens : opening.opensChildren = true) {keyType valueType : SigType}
    (hwf : (SigType.array (.dictEntry keyType valueType)).WellFormed false)
    (hlimit : ((SigType.array (.dictEntry keyType valueType)).nesting : Int) ≤ maxDepthLimit)
    (hfits : depth + 1 ≤ settings.maxDepth)
    {parts : List ((Native × Native) × (Variant × Variant))}
    (hkeys : ∀ part ∈ parts, part.2.1.unpackAt settings opening (depth + 1 + 1) = .ok part.1.1)
    (hvalues : ∀ part ∈ parts,
      part.2.2.unpackAt settings opening (depth + 1 + 1) = .ok part.1.2) :
    (array (SigType.dictEntry keyType valueType).text
        (parts.map (fun part => .entry part.2.1 part.2.2))).unpackAt settings opening depth =
      .ok (.mapOf (parts.map Prod.fst)) := by
  cases hwf with
  | array hentry =>
      have hcovers :
          SigType.dictionaryPattern.covers (.array (.dictEntry keyType valueType)) = true :=
        (SigType.dictionaryPattern_covers_iff hentry).mpr ⟨_, _, rfl⟩
      rw [unpackAt, checkDepth_of_le (by omega),
        isOfType_dictionary (.array hentry) hlimit (by simp [typeLetters, SigType.letters]),
        hcovers, unpackEntries_of_parts hopens hfits hkeys hvalues]
      rfl

/-- An array of entries with different keys unpacks to the map of them. -/
theorem unpackAt_dictionary (hopens : opening.opensChildren = true) {keyType valueType : SigType}
    (hwf : (SigType.array (.dictEntry keyType valueType)).WellFormed false)
    (hlimit : ((SigType.array (.dictEntry keyType valueType)).nesting : Int) ≤ maxDepthLimit)
    (hfits : depth + 1 ≤ settings.maxDepth)
    {parts : List ((Native × Native) × (Variant × Variant))}
    (hkeys : ∀ part ∈ parts, part.2.1.unpackAt settings opening (depth + 1 + 1) = .ok part.1.1)
    (hvalues : ∀ part ∈ parts, part.2.2.unpackAt settings opening (depth + 1 + 1) = .ok part.1.2)
    (hdistinct : parts.Pairwise (fun earlier later => earlier.1.1.same later.1.1 = false)) :
    (array (SigType.dictEntry keyType valueType).text
        (parts.map (fun part => .entry part.2.1 part.2.2))).unpackAt settings opening depth =
      .ok (.map (parts.map Prod.fst)) := by
  rw [unpackAt_entries hopens hwf hlimit hfits hkeys hvalues,
    Native.mapOf_of_pairwise (List.pairwise_map.mpr hdistinct)]

/-- An array of anything but entries unpacks to the list of what its elements unpack to. -/
theorem unpackAt_list (hopens : opening.opensChildren = true) {element : SigType}
    (hentry : ¬element.IsEntry) (hwf : (SigType.array element).WellFormed false)
    (hlimit : ((SigType.array element).nesting : Int) ≤ maxDepthLimit)
    (hfits : depth ≤ settings.maxDepth) {parts : List (Native × Variant)}
    (hparts : ∀ part ∈ parts, part.2.unpackAt settings opening (depth + 1) = .ok part.1) :
    (array element.text (parts.map Prod.snd)).unpackAt settings opening depth =
      .ok (.list (parts.map Prod.fst)) := by
  cases hwf with
  | array helement =>
      have hcovers : SigType.dictionaryPattern.covers (.array element) = false := by
        rw [← Bool.not_eq_true, SigType.dictionaryPattern_covers_iff helement]
        exact hentry
      rw [unpackAt, checkDepth_of_le hfits,
        isOfType_dictionary (.array helement) hlimit (by simp [typeLetters, SigType.letters]),
        hcovers, hopens, unpackAll_of_parts hparts]
      rfl

/-- A tuple unpacks to the list of what its members unpack to. -/
theorem unpackAt_tuple (hopens : opening.opensChildren = true) (hfits : depth ≤ settings.maxDepth)
    {parts : List (Native × Variant)}
    (hparts : ∀ part ∈ parts, part.2.unpackAt settings opening (depth + 1) = .ok part.1) :
    (tuple (parts.map Prod.snd)).unpackAt settings opening depth =
      .ok (.list (parts.map Prod.fst)) := by
  rw [unpackAt, checkDepth_of_le hfits, hopens, unpackAll_of_parts hparts]
  rfl

/-- An entry unpacks to the list of what its key and its value unpack to. -/
theorem unpackAt_entry_eq_ok_iff (hopens : opening.opensChildren = true)
    (hfits : depth ≤ settings.maxDepth) {key value : Variant} {x : Native} :
    (entry key value).unpackAt settings opening depth = .ok x ↔
      ∃ keyItem valueItem, key.unpackAt settings opening (depth + 1) = .ok keyItem ∧
        value.unpackAt settings opening (depth + 1) = .ok valueItem ∧
        x = .list [keyItem, valueItem] := by
  rw [unpackAt, checkDepth_of_le hfits, hopens]
  simp only [bind_eq_ok_iff, if_true, true_and, exists_const]
  constructor
  · rintro ⟨keyItem, hkey, valueItem, hvalue, hx⟩
    exact ⟨keyItem, valueItem, hkey, hvalue, (Except.ok.inj hx).symm⟩
  · rintro ⟨keyItem, valueItem, hkey, hvalue, rfl⟩
    exact ⟨keyItem, hkey, valueItem, hvalue, rfl⟩

end Variant

end TypedVariant
