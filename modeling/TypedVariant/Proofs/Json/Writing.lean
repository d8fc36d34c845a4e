import TypedVariant.Json.Writer
import TypedVariant.Proofs.Bisection
import TypedVariant.Proofs.Native.Keys
import TypedVariant.Proofs.Variant.Printing

/-!
# Whatever typed variants unpack to has JSON text

Writing may fail for a kind of value that JSON has no form for, for a variant without
a printed form, for an integer of too many digits, or for keys that have no order among
them. Nothing of this is met in what a typed variant unpacks to, however far it is opened:
its variants are typed themselves, its integers fit into machine words, and the keys of one
map are all of one basic type.
-/

namespace TypedVariant

namespace Json

/-- The value has a canonical JSON text. -/
def IsWritable (x : Native) : Prop :=
  ∃ text, writeChars x = .ok text

theorem IsWritable.exists_write {x : Native} (hx : IsWritable x) : ∃ text, write x = .ok text := by
  obtain ⟨text, htext⟩ := hx
  exact ⟨String.ofList text, by rw [write, htext]; rfl⟩

theorem writeInt_of_short {value : Int} (hshort : Numeral.isOverlong value = false) :
    writeInt value = .ok (intText value) := by
  rw [writeInt, PrintFault.ofInteger?, hshort]
  rfl

theorem writeInt_of_overlong {value : Int} (hlong : Numeral.isOverlong value = true) :
    writeInt value = .error (.unprintable .overlongInteger) := by
  rw [writeInt, PrintFault.ofInteger?, hlong]
  rfl

theorem writeAll_eq_mapM (items : List Native) : writeAll items = items.mapM writeChars := by
  induction items with
  | nil => rfl
  | cons x rest ih => rw [writeAll, ih, List.mapM_cons]

theorem writeEntries_eq_map (entries : List (Native × Native)) :
    writeEntries entries = entries.map (fun entry => (entry.1, writeChars entry.2)) := by
  induction entries with
  | nil => rfl
  | cons entry rest ih => rw [writeEntries, ih, List.map_cons]

theorem isWritable_list_iff {items : List Native} :
    IsWritable (.list items) ↔ ∀ item ∈ items, IsWritable item := by
  unfold IsWritable
  rw [← exists_mapM_eq_ok_iff, ← writeAll_eq_mapM]
  simp only [writeChars, map_eq_ok_iff]
  constructor
  · rintro ⟨_, texts, htexts, -⟩
    exact ⟨texts, htexts⟩
  · rintro ⟨texts, htexts⟩
    exact ⟨_, texts, htexts, rfl⟩

/-- Members whose keys have an order among them are sorted. -/
theorem exists_sortMembers {α : Type} {members : List (Native × α)}
    (hordered : ∀ a ∈ members, ∀ b ∈ members, ∃ outcome, a.1.less b.1 = .ok outcome) :
    ∃ sorted, sortMembers members = .ok sorted ∧ sorted.Perm members := by
  have hless : ∀ a b : Native × α, a ∈ members → b ∈ members →
      FailsOnly (fun _ => False) (a.1.less b.1) := by
    intro a b ha hb e he
    obtain ⟨outcome, houtcome⟩ := hordered a ha b hb
    cases houtcome.symm.trans he
  obtain ⟨sorted, hsorted⟩ := (Bisection.sort_failsOnly hless (fun _ ha => ha)).exists_eq_ok
  exact ⟨sorted, mapError_eq_ok_iff.mpr hsorted, Bisection.sort_perm hsorted⟩

/-- Members are written if each of them is, and if their keys have an order among them. -/
theorem exists_writeObject {members : List (Native × Except WriteError (List Char))}
    (hordered : ∀ a ∈ members, ∀ b ∈ members, ∃ outcome, a.1.less b.1 = .ok outcome)
    (hmembers : ∀ member ∈ members, ∃ text, writeMember member = .ok text) :
    ∃ text, writeObject members = .ok text := by
  obtain ⟨sorted, hsorted, hperm⟩ := exists_sortMembers hordered
  obtain ⟨texts, htexts⟩ := exists_mapM_eq_ok_iff.mpr
    (fun member (hmember : member ∈ sorted) => hmembers member (hperm.mem_iff.mp hmember))
  refine ⟨'{' :: ([','].intercalate texts ++ ['}']), ?_⟩
  rw [writeObject, hsorted]
  exact bind_eq_ok_iff.mpr ⟨sorted, rfl, bind_eq_ok_iff.mpr ⟨texts, htexts, rfl⟩⟩

theorem isWritable_map {entries : List (Native × Native)}
    (hordered : ∀ a ∈ entries, ∀ b ∈ entries, ∃ outcome, a.1.less b.1 = .ok outcome)
    (hkeys : ∀ entry ∈ entries, ∃ text, keyText entry.1 = .ok text)
    (hvalues : ∀ entry ∈ entries, IsWritable entry.2) : IsWritable (.map entries) := by
  rw [IsWritable, writeChars, writeEntries_eq_map]
  apply exists_writeObject
  · simpa only [List.forall_mem_map] using hordered
  · rw [List.forall_mem_map]
    intro entry hentry
    obtain ⟨key, hkey⟩ := hkeys entry hentry
    obtain ⟨value, hvalue⟩ := hvalues entry hentry
    exact ⟨_, by rw [writeMember, hkey, hvalue]; rfl⟩

end Json

open Json (IsWritable isWritable_list_iff)

namespace Variant

variable {v key other : Variant} {code : BasicCode} {type : SigType} {opening : Opening}

/-! ## Keys of one basic type -/

theorem exists_less_unpacked (hkey : HasType key (.basic code))
    (hother : HasType other (.basic code)) :
    ∃ outcome, (key.unpacked opening).less (other.unpacked opening) = .ok outcome := by
  cases hkey <;> cases hother <;> exact ⟨_, rfl⟩

theorem exists_keyText_unpacked (hkey : HasType key (.basic code)) :
    ∃ text, Json.keyText (key.unpacked opening) = .ok text := by
  cases hkey with
  | integer hholds => exact ⟨_, Json.writeInt_of_short hholds.isOverlong_eq_false⟩
  | boolean | double | text => exact ⟨_, rfl⟩

/-! ## Values of typed variants -/

theorem isWritable_variant (htyped : HasType v type) : IsWritable (.variant v) := by
  rw [IsWritable, Json.writeChars, printFault?_eq_none htyped]
  exact ⟨_, rfl⟩

/-- A map with the entries of a dictionary is written if their values are. -/
theorem isWritable_mapOf {pairs : List (Variant × Variant)}
    (hkeys : ∀ pair ∈ pairs, HasType pair.1 (.basic code))
    (hvalues : ∀ pair ∈ pairs, IsWritable (pair.2.unpackedChild opening)) :
    IsWritable (.mapOf (pairs.map (unpackedPair opening))) := by
  have hpairs : ∀ pair ∈ pairs.map (unpackedPair opening),
      (∃ key, HasType key (.basic code) ∧ pair.1 = key.unpacked opening.ofKeys) ∧
        IsWritable pair.2 :=
    List.forall_mem_map.mpr (fun pair hpair =>
      ⟨⟨pair.1, hkeys pair hpair, rfl⟩, hvalues pair hpair⟩)
  obtain ⟨entries, hmap, hentries⟩ := Native.exists_mapOf (Q := IsWritable)
    (P := fun x => ∃ key, HasType key (.basic code) ∧ x = key.unpacked opening.ofKeys) hpairs
  rw [hmap]
  apply Json.isWritable_map
  · intro a ha b hb
    obtain ⟨⟨key, hkey, hkeyValue⟩, -⟩ := hentries a ha
    obtain ⟨⟨other, hother, hotherValue⟩, -⟩ := hentries b hb
    rw [hkeyValue, hotherValue]
    exact exists_less_unpacked hkey hother
  · intro entry hentry
    obtain ⟨⟨key, hkey, hkeyValue⟩, -⟩ := hentries entry hentry
    rw [hkeyValue]
    exact exists_keyText_unpacked hkey
  · exact fun entry hentry => (hentries entry hentry).2

theorem isWritable_unpackedChild (htyped : HasType v type)
    (hopened : IsWritable (v.unpacked opening)) : IsWritable (v.unpackedChild opening) := by
  unfold unpackedChild
  split
  next => exact hopened
  next => exact isWritable_variant htyped

theorem unpacked_entry : (entry key v).unpacked opening =
    .list [key.unpackedChild opening, v.unpackedChild opening] := by
  rw [unpacked, unpackedChild, unpackedChild]
  split <;> rfl

/-- Whatever a typed variant unpacks to is written. -/
theorem isWritable_unpacked (htyped : HasType v type) : IsWritable (v.unpacked opening) := by
  induction htyped with
  | boolean | double | text | nothing | bytes => exact ⟨_, rfl⟩
  | integer hholds => exact ⟨_, Json.writeInt_of_short hholds.isOverlong_eq_false⟩
  | box hcontent ih =>
      rw [unpacked]
      split
      next => exact ih
      next => exact isWritable_variant hcontent
  | just hcontent ih => exact isWritable_unpackedChild hcontent ih
  | @array element items helement _ hitems ih =>
      rw [unpacked]
      split
      next hdictionary =>
        obtain ⟨pairs, rfl, hpairs⟩ := exists_pairs helement hitems hdictionary
        obtain ⟨keyType, valueType, rfl⟩ := (isDictionaryLike_array_iff helement).mp hdictionary
        cases helement with
        | dictEntry hbasic hkey _ =>
            obtain ⟨code, rfl⟩ := hkey.exists_code_of_isBasic hbasic
            rw [unpackedEntries_ofPair]
            have hkeys : ∀ pair ∈ pairs, HasType pair.1 (.basic code) := by
              intro pair hpair
              cases hpairs pair hpair with
              | entry hkey _ => exact hkey
            refine isWritable_mapOf hkeys (fun pair hpair => ?_)
            have hparts := ih (ofPair pair) (List.mem_map_of_mem hpair)
            rw [ofPair, unpacked_entry, isWritable_list_iff] at hparts
            exact hparts _ (by simp)
      next =>
        rw [unpackedAll_eq_map, isWritable_list_iff, List.forall_mem_map]
        exact fun item hitem => isWritable_unpackedChild (hitems item hitem) (ih item hitem)
  | tuple parts hparts ih =>
      rw [unpacked, unpackedAll_eq_map, isWritable_list_iff, List.forall_mem_map,
        List.forall_mem_map]
      exact fun part hpart => isWritable_unpackedChild (hparts part hpart) (ih part hpart)
  | entry hkey hvalue ihkey ihvalue =>
      rw [unpacked_entry, isWritable_list_iff]
      simpa using ⟨isWritable_unpackedChild hkey ihkey, isWritable_unpackedChild hvalue ihvalue⟩

end Variant

end TypedVariant
