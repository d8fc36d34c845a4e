import TypedVariant.Proofs.Json.ReadBack
import TypedVariant.Proofs.Json.Writing
import TypedVariant.Proofs.Native.Integers
import TypedVariant.Proofs.Unpack.Step
import TypedVariant.Proofs.Variant.Built

/-!
# Canonical text is the same for every order, and is read back

The members of a map are written in the order of their keys, so the order in which they were
stored leaves no trace, at any depth. Reading such a text gives the value again but for what JSON
has no form of its own for: tuples come back as lists, blocks of bytes as lists of numbers, and
variants as their printed form. An integer of more digits than numerals have is refused, wherever
it stands.
-/

namespace TypedVariant

/-! ## Values up to the order of their members -/

mutual

/-- What the JSON text of a value stands for. -/
def Native.jsonForm : Native → Native
  | .blob _ data => .list (data.map (fun b => .int b.toNat))
  | .list items | .tuple items => .list (Native.jsonForms items)
  | .map entries => .map (Native.jsonEntries entries)
  | .variant v => .text (String.ofList (v.print false))
  | x => x
termination_by structural x => x

def Native.jsonForms : List Native → List Native
  | [] => []
  | x :: rest => x.jsonForm :: Native.jsonForms rest
termination_by structural items => items

def Native.jsonEntries : List (Native × Native) → List (Native × Native)
  | [] => []
  | (key, value) :: rest => (key, value.jsonForm) :: Native.jsonEntries rest
termination_by structural entries => entries

end

theorem Native.jsonForms_eq_map (items : List Native) :
    Native.jsonForms items = items.map Native.jsonForm := by
  induction items with
  | nil => rfl
  | cons x rest ih => rw [Native.jsonForms, ih, List.map_cons]

theorem Native.jsonEntries_eq_map (entries : List (Native × Native)) :
    Native.jsonEntries entries = entries.map (fun entry => (entry.1, entry.2.jsonForm)) := by
  induction entries with
  | nil => rfl
  | cons entry rest ih => rw [Native.jsonEntries, ih, List.map_cons]

namespace Json

/-- Two values differ in nothing but the order of the entries of maps, at any depth. -/
inductive SameButOrder : Native → Native → Prop
  | refl (x : Native) : SameButOrder x x
  | list {items others : List Native} (hitems : List.Forall₂ SameButOrder items others) :
      SameButOrder (.list items) (.list others)
  | tuple {items others : List Native} (hitems : List.Forall₂ SameButOrder items others) :
      SameButOrder (.tuple items) (.tuple others)
  | map {entries others shuffled : List (Native × Native)}
      (hkeys : entries.map Prod.fst = others.map Prod.fst)
      (hvalues : List.Forall₂ SameButOrder (entries.map Prod.snd) (others.map Prod.snd))
      (hperm : shuffled.Perm others) : SameButOrder (.map entries) (.map shuffled)

/-- A member as an entry of a map, with its key as a text. -/
def keyed {α : Type} (member : String × α) : Native × α :=
  (.text member.1, member.2)

/-- Values of the kinds that have canonical text and are read back from it. -/
inductive IsPortable : Native → Prop
  | null : IsPortable .null
  | bool (value : Bool) : IsPortable (.bool value)
  | int (value : Int) : IsPortable (.int value)
  | text (value : String) : IsPortable (.text value)
  | blob (kind : BlobKind) (data : List UInt8) : IsPortable (.blob kind data)
  | variant {v : Variant} (hbuilt : Built v) : IsPortable (.variant v)
  | list {items : List Native} (hitems : ∀ item ∈ items, IsPortable item) :
      IsPortable (.list items)
  | tuple {items : List Native} (hitems : ∀ item ∈ items, IsPortable item) :
      IsPortable (.tuple items)
  | map {entries : List (String × Native)} (hdistinct : (entries.map Prod.fst).Nodup)
      (hvalues : ∀ entry ∈ entries, IsPortable entry.2) : IsPortable (.map (entries.map keyed))

variable {α : Type} {x y : Native} {items others : List Native}
  {entries : List (Native × Native)}

theorem exists_list_of_sameButOrder (hsame : SameButOrder (.list items) y) :
    ∃ others, y = .list others ∧ List.Forall₂ SameButOrder items others := by
  cases hsame with
  | refl => exact ⟨items, rfl, List.forall₂_same.mpr (fun x _ => .refl x)⟩
  | list hitems => exact ⟨_, rfl, hitems⟩

theorem exists_tuple_of_sameButOrder (hsame : SameButOrder (.tuple items) y) :
    ∃ others, y = .tuple others ∧ List.Forall₂ SameButOrder items others := by
  cases hsame with
  | refl => exact ⟨items, rfl, List.forall₂_same.mpr (fun x _ => .refl x)⟩
  | tuple hitems => exact ⟨_, rfl, hitems⟩

theorem exists_map_of_sameButOrder (hsame : SameButOrder (.map entries) y) :
    ∃ others shuffled, y = .map shuffled ∧ shuffled.Perm others ∧
      entries.map Prod.fst = others.map Prod.fst ∧
      List.Forall₂ SameButOrder (entries.map Prod.snd) (others.map Prod.snd) := by
  cases hsame with
  | refl => exact ⟨entries, entries, rfl, .refl _, rfl, List.forall₂_same.mpr (fun x _ => .refl x)⟩
  | map hkeys hvalues hperm => exact ⟨_, _, rfl, hperm, hkeys, hvalues⟩

/-! ## The order of members -/

/-- Both keys are texts, and the second does not come before the first. -/
def KeysInOrder (a b : Native × α) : Prop :=
  ∃ s t, a.1 = .text s ∧ b.1 = .text t ∧ s ≤ t

theorem followsOrder_keysInOrder :
    Bisection.FollowsOrder (fun a b : Native × α => a.1.less b.1) KeysInOrder
      (fun a => ∃ s, a.1 = .text s) where
  trans := by
    rintro a b c ⟨s, t, ha, hb, hst⟩ ⟨t', u, hb', hc, htu⟩
    obtain rfl := Native.text.inj (hb.symm.trans hb')
    exact ⟨s, u, ha, hc, String.le_trans hst htu⟩
  before := by
    rintro a b ⟨s, ha⟩ ⟨t, hb⟩ hless
    rw [ha, hb] at hless
    have hst : s < t := of_decide_eq_true (Except.ok.inj hless)
    exact ⟨s, t, ha, hb, String.lt_asymm hst⟩
  behind := by
    rintro a b ⟨s, ha⟩ ⟨t, hb⟩ hless
    rw [ha, hb] at hless
    exact ⟨t, s, hb, ha, of_decide_eq_false (Except.ok.inj hless)⟩

/-- Members with different texts for keys have one order in which they are written. -/
theorem sortMembers_of_perm {members : List (Native × α)} {ordered : List (String × α)}
    (hordered : ordered.Pairwise (fun a b => a.1 < b.1))
    (hperm : members.Perm (ordered.map keyed)) :
    sortMembers members = .ok (ordered.map keyed) := by
  have hkeys : ∀ member ∈ members, ∃ s, member.1 = .text s := by
    intro member hmember
    obtain ⟨source, -, rfl⟩ := List.mem_map.mp (hperm.mem_iff.mp hmember)
    exact ⟨source.1, rfl⟩
  have hcompared : ∀ a ∈ members, ∀ b ∈ members, ∃ outcome, a.1.less b.1 = .ok outcome := by
    intro a ha b hb
    obtain ⟨s, hs⟩ := hkeys a ha
    obtain ⟨t, ht⟩ := hkeys b hb
    exact ⟨_, by rw [hs, ht]; rfl⟩
  obtain ⟨sorted, hsort, hsortedPerm⟩ := exists_sortMembers hcompared
  have hsorted := Bisection.sort_pairwise followsOrder_keysInOrder hkeys
    (mapError_eq_ok_iff.mp hsort)
  have horderedKeys : (ordered.map keyed).Pairwise KeysInOrder := by
    rw [List.pairwise_map]
    exact hordered.imp (fun hlt => ⟨_, _, rfl, rfl, String.lt_asymm hlt⟩)
  rw [hsort, List.Perm.eq_of_pairwise ?_ hsorted horderedKeys (hsortedPerm.trans hperm)]
  -- Members whose keys are in order both ways have the same key, and so are the same.
  have hdistinct : (ordered.map Prod.fst).Nodup := by
    rw [List.Nodup, List.pairwise_map]
    exact hordered.imp (fun hlt => String.ne_of_lt hlt)
  intro a b hsortedA horderedB hab hba
  obtain ⟨a, ha, rfl⟩ := List.mem_map.mp ((hsortedPerm.trans hperm).mem_iff.mp hsortedA)
  obtain ⟨b, hb, rfl⟩ := List.mem_map.mp horderedB
  obtain ⟨_, _, ⟨⟩, ⟨⟩, hle⟩ := hab
  obtain ⟨_, _, ⟨⟩, ⟨⟩, hge⟩ := hba
  rw [List.inj_on_of_nodup_map hdistinct ha hb (String.le_antisymm hle hge)]

/-- Distinct keys can be put in order. -/
theorem exists_ordered {members : List (String × α)} (hdistinct : (members.map Prod.fst).Nodup) :
    ∃ ordered : List (String × α), ordered.Perm members ∧
      ordered.Pairwise (fun a b => a.1 < b.1) := by
  let le (a b : String × α) : Bool := decide (a.1 ≤ b.1)
  have hperm : (members.mergeSort le).Perm members := List.mergeSort_perm members le
  have hsorted : (members.mergeSort le).Pairwise (fun a b => le a b = true) := by
    apply List.pairwise_mergeSort
    · intro a b c hab hbc
      exact decide_eq_true (String.le_trans (of_decide_eq_true hab) (of_decide_eq_true hbc))
    · intro a b
      simpa [le] using String.le_total a.1 b.1
  refine ⟨_, hperm, ?_⟩
  have hdistinct := (hperm.map Prod.fst).nodup_iff.mpr hdistinct
  rw [List.Nodup, List.pairwise_map] at hdistinct
  refine (hsorted.and hdistinct).imp ?_
  rintro a b ⟨hle, hne⟩
  exact String.not_le.mp (fun hge => hne (String.le_antisymm (of_decide_eq_true hle) hge))

/-! ## Texts of values -/

/-- A value beside its text, and what is read back from that. -/
structure Rendering where
  value : Native
  text : List Char
  back : Native

/-- The text is written for every order of the members, and read back as the form of the value. -/
structure Rendering.IsCanonical (rendering : Rendering) : Prop where
  written : ∀ y, SameButOrder rendering.value y → writeChars y = .ok rendering.text
  reads : ReadsAs rendering.text rendering.back
  form : SameButOrder rendering.value.jsonForm rendering.back

open Rendering (IsCanonical)

variable {renderings : List Rendering} {members : List (String × Rendering)}

theorem isShort_keyed_iff {entries : List (String × Native)} :
    (Native.map (entries.map keyed)).IsShort ↔ ∀ entry ∈ entries, entry.2.IsShort := by
  rw [Native.isShort_map_iff, List.forall_mem_map]
  exact forall₂_congr (fun _ _ => and_iff_right (Native.isShort_of_integers_eq_nil rfl))

/-- A value that has no members anywhere is written in one way only. -/
theorem isCanonical_of_single {text : List Char} (honly : ∀ y, SameButOrder x y → y = x)
    (hwrite : writeChars x = .ok text) (hreads : ReadsAs text x.jsonForm) :
    IsCanonical ⟨x, text, x.jsonForm⟩ where
  written := by
    intro y hsame
    rw [honly y hsame, hwrite]
  reads := hreads
  form := .refl _

theorem isCanonical_blob (kind : BlobKind) (data : List UInt8) :
    IsCanonical ⟨.blob kind data, writeArray (data.map (fun b => intText b.toNat)),
      (Native.blob kind data).jsonForm⟩ := by
  have hshort (b : UInt8) : Numeral.isOverlong b.toNat = false := by
    have hbyte := b.toNat_lt
    exact Numeral.isOverlong_eq_false_of_word (by omega) (by omega)
  have hparts : ∀ part ∈ data.map (fun b => (intText b.toNat, Native.int b.toNat)),
      ReadsAs part.1 part.2 :=
    List.forall_mem_map.mpr (fun b _ => readsAs_int (hshort b))
  have hreads := readsAs_array hparts
  rw [List.map_map, List.map_map] at hreads
  exact isCanonical_of_single (by rintro _ ⟨⟩; rfl) rfl hreads

theorem writeAll_of_sameButOrder (hrenderings : ∀ r ∈ renderings, r.IsCanonical)
    (hsame : List.Forall₂ SameButOrder (renderings.map Rendering.value) others) :
    writeAll others = .ok (renderings.map Rendering.text) := by
  rw [List.forall₂_map_left_iff] at hsame
  induction hsame with
  | nil => rfl
  | cons hfirst _ ih =>
      obtain ⟨hr, hrenderings⟩ := List.forall_mem_cons.mp hrenderings
      rw [writeAll, hr.written _ hfirst, ih hrenderings]
      rfl

/-- Lists and tuples are written as arrays of the texts of their items. -/
theorem isCanonical_array (hrenderings : ∀ r ∈ renderings, r.IsCanonical)
    (hwrite : ∀ y, SameButOrder x y → ∃ others, writeChars y = (writeAll others).map writeArray ∧
      List.Forall₂ SameButOrder (renderings.map Rendering.value) others)
    (hform : x.jsonForm = .list (Native.jsonForms (renderings.map Rendering.value))) :
    IsCanonical ⟨x, writeArray (renderings.map Rendering.text),
      .list (renderings.map Rendering.back)⟩ where
  written := by
    intro y hsame
    obtain ⟨others, hothers, hitems⟩ := hwrite y hsame
    rw [hothers, writeAll_of_sameButOrder hrenderings hitems]
    rfl
  reads := by
    have hparts : ∀ part ∈ renderings.map (fun r => (r.text, r.back)), ReadsAs part.1 part.2 :=
      List.forall_mem_map.mpr (fun r hr => (hrenderings r hr).reads)
    have hreads := readsAs_array hparts
    rwa [List.map_map, List.map_map] at hreads
  form := by
    rw [hform, Native.jsonForms_eq_map, List.map_map]
    exact .list (forall₂_map_iff.mpr (fun r hr => (hrenderings r hr).form))

/-- A member whose value is written already. -/
def withText (member : String × Rendering) : String × Except WriteError (List Char) :=
  (member.1, .ok member.2.text)

theorem writeEntries_of_sameButOrder (hmembers : ∀ member ∈ members, member.2.IsCanonical)
    (hkeys : members.map (fun member => Native.text member.1) = entries.map Prod.fst)
    (hvalues : List.Forall₂ SameButOrder (members.map (fun member => member.2.value))
      (entries.map Prod.snd)) :
    writeEntries entries = (members.map withText).map keyed := by
  induction members generalizing entries with
  | nil =>
      obtain rfl := List.map_eq_nil_iff.mp hkeys.symm
      rfl
  | cons member members ih =>
      obtain ⟨hmember, hmembers⟩ := List.forall_mem_cons.mp hmembers
      obtain ⟨entry, rest, rfl, hkey, hkeys⟩ := List.map_eq_cons_iff.mp hkeys.symm
      obtain ⟨hvalue, hvalues⟩ := List.forall₂_cons.mp hvalues
      rw [writeEntries, hmember.written _ hvalue, ih hmembers hkeys.symm hvalues, hkey]
      rfl

/-- Whatever the order of the entries, the members are written in the order of their keys. -/
theorem isCanonical_map {ordered : List (String × Rendering)}
    (hmembers : ∀ member ∈ members, member.2.IsCanonical) (hperm : ordered.Perm members)
    (hordered : ordered.Pairwise (fun a b => a.1 < b.1)) :
    IsCanonical ⟨.map (members.map (fun member => keyed (member.1, member.2.value))),
      '{' :: ([','].intercalate (ordered.map (fun member => memberText member.1 member.2.text)) ++
        ['}']),
      .map (ordered.map (fun member => keyed (member.1, member.2.back)))⟩ where
  written := by
    intro y hsame
    obtain ⟨others, shuffled, rfl, hshuffled, hkeys, hvalues⟩ := exists_map_of_sameButOrder hsame
    rw [List.map_map] at hkeys hvalues
    have hothers := writeEntries_of_sameButOrder hmembers hkeys hvalues
    have htexts : (writeEntries shuffled).Perm ((ordered.map withText).map keyed) := by
      rw [writeEntries_eq_map] at hothers ⊢
      have hentries := hshuffled.map (fun entry => (entry.1, writeChars entry.2))
      rw [hothers] at hentries
      exact hentries.trans ((hperm.map _).map _).symm
    have hstrict : (ordered.map withText).Pairwise (fun a b => a.1 < b.1) :=
      List.pairwise_map.mpr hordered
    have hsort := sortMembers_of_perm hstrict htexts
    rw [writeChars, writeObject, hsort, List.map_map]
    exact bind_eq_ok_iff.mpr
      ⟨_, rfl, bind_eq_ok_iff.mpr ⟨_, mapM_map_eq_ok (fun _ _ => rfl), rfl⟩⟩
  reads := by
    have hparts : ∀ part ∈ ordered.map (fun member => (member.1, member.2.text, member.2.back)),
        ReadsAs part.2.1 part.2.2 :=
      List.forall_mem_map.mpr (fun member hmember =>
        (hmembers member (hperm.mem_iff.mp hmember)).reads)
    have hreads := readsAs_object hparts
    rw [List.map_map, List.map_map, Native.mapOf_of_pairwise] at hreads
    · exact hreads
    · rw [List.pairwise_map]
      exact hordered.imp (fun hlt => Native.same_text_eq_false (String.ne_of_lt hlt))
  form := by
    rw [Native.jsonForm, Native.jsonEntries_eq_map]
    have hbacks := hperm.map (fun member => keyed (member.1, member.2.back))
    refine .map ?_ ?_ hbacks
    · rw [List.map_map, List.map_map, List.map_map]
      rfl
    · rw [List.map_map, List.map_map, List.map_map]
      exact forall₂_map_iff.mpr (fun member hmember => (hmembers member hmember).form)

theorem exists_isCanonical (hx : IsPortable x) (hshort : x.IsShort) :
    ∃ rendering : Rendering, rendering.IsCanonical ∧ x = rendering.value := by
  induction hx with
  | null =>
      exact ⟨_, isCanonical_of_single (by rintro _ ⟨⟩; rfl) rfl readsAs_null, rfl⟩
  | bool value =>
      exact ⟨_, isCanonical_of_single (by rintro _ ⟨⟩; rfl) rfl (readsAs_bool value), rfl⟩
  | int value =>
      have hshort := Native.isShort_int_iff.mp hshort
      have hwrite : writeChars (.int value) = .ok (intText value) := writeInt_of_short hshort
      exact ⟨_, isCanonical_of_single (by rintro _ ⟨⟩; rfl) hwrite (readsAs_int hshort), rfl⟩
  | text value =>
      have hreads := readsAs_string value.toList
      rw [String.ofList_toList] at hreads
      exact ⟨_, isCanonical_of_single (by rintro _ ⟨⟩; rfl) rfl hreads, rfl⟩
  | blob kind data => exact ⟨_, isCanonical_blob kind data, rfl⟩
  | @variant v hbuilt =>
      obtain ⟨type, htyped⟩ := hbuilt.isTyped
      have hwrite : writeChars (.variant v) = .ok (writeString (v.print false)) := by
        rw [writeChars, Variant.printFault?_eq_none htyped]
      exact ⟨_, isCanonical_of_single (by rintro _ ⟨⟩; rfl) hwrite (readsAs_string _), rfl⟩
  | list _ ih =>
      obtain ⟨renderings, rfl, hrenderings⟩ := exists_eq_map
        (fun item hitem => ih item hitem (Native.isShort_list_iff.mp hshort item hitem))
      refine ⟨_, isCanonical_array hrenderings (fun y hsame => ?_) rfl, rfl⟩
      obtain ⟨others, rfl, hitems⟩ := exists_list_of_sameButOrder hsame
      exact ⟨others, rfl, hitems⟩
  | tuple _ ih =>
      obtain ⟨renderings, rfl, hrenderings⟩ := exists_eq_map
        (fun item hitem => ih item hitem (Native.isShort_list_iff.mp hshort item hitem))
      refine ⟨_, isCanonical_array hrenderings (fun y hsame => ?_) rfl, rfl⟩
      obtain ⟨others, rfl, hitems⟩ := exists_tuple_of_sameButOrder hsame
      exact ⟨others, rfl, hitems⟩
  | @map entries hdistinct _ ih =>
      obtain ⟨members, rfl, hmembers⟩ : ∃ members : List (String × Rendering),
          entries = members.map (fun member => (member.1, member.2.value)) ∧
            ∀ member ∈ members, member.2.IsCanonical := by
        apply exists_eq_map
        intro entry hentry
        obtain ⟨rendering, hcanonical, hvalue⟩ :=
          ih entry hentry (isShort_keyed_iff.mp hshort entry hentry)
        exact ⟨(entry.1, rendering), hcanonical, Prod.ext rfl hvalue⟩
      rw [List.map_map] at hdistinct
      obtain ⟨ordered, hperm, hordered⟩ := exists_ordered hdistinct
      exact ⟨_, isCanonical_map hmembers hperm hordered, by rw [List.map_map]; rfl⟩

/-! ## Integers of too many digits -/

/-- Members under texts are refused as one of their values is, if there is one refusal only. -/
theorem writeObject_eq_error {members : List (String × Except WriteError (List Char))}
    {member : String × Except WriteError (List Char)} {refusal : WriteError}
    (hmembers : ∀ member ∈ members, FailsOnly (· = refusal) member.2) (hmember : member ∈ members)
    (hrefused : member.2 = .error refusal) :
    writeObject (members.map keyed) = .error refusal := by
  have hordered : ∀ a ∈ members.map keyed, ∀ b ∈ members.map keyed,
      ∃ outcome, a.1.less b.1 = .ok outcome := by
    simp only [List.forall_mem_map]
    exact fun a _ b _ => ⟨_, rfl⟩
  obtain ⟨sorted, hsorted, hperm⟩ := exists_sortMembers hordered
  have hwritten : sorted.mapM writeMember = .error refusal := by
    refine FailsOnly.mapM_eq_error ?_ (hperm.mem_iff.mpr (List.mem_map_of_mem hmember)) ?_
    · intro entry hentry
      obtain ⟨source, hsource, rfl⟩ := List.mem_map.mp (hperm.mem_iff.mp hentry)
      exact (FailsOnly.ok _).bind (fun _ _ => (hmembers source hsource).bind (fun _ _ => .ok _))
    · rw [writeMember, keyed, hrefused]
      rfl
  rw [writeObject, hsorted]
  change (sorted.mapM writeMember >>= _) = _
  rw [hwritten]
  rfl

/-- What an integer of too many digits is refused with. -/
def overlongRefusal : WriteError :=
  .unprintable .overlongInteger

/-- Part by part, there is nothing else to be refused for. -/
theorem writeChars_failsOnly (hx : IsPortable x)
    (hlong : ¬x.IsShort → writeChars x = .error overlongRefusal) :
    FailsOnly (· = overlongRefusal) (writeChars x) := by
  by_cases hshort : x.IsShort
  · obtain ⟨rendering, hcanonical, rfl⟩ := exists_isCanonical hx hshort
    rw [hcanonical.written _ (.refl _)]
    exact .ok _
  · rw [hlong hshort]
    exact .error rfl

theorem writeAll_of_not_isShort (hitems : ∀ item ∈ items, IsPortable item)
    (hrefused : ∀ item ∈ items, ¬item.IsShort → writeChars item = .error overlongRefusal)
    (hlong : ¬(Native.list items).IsShort) :
    (writeAll items).map writeArray = .error overlongRefusal := by
  obtain ⟨item, hitem, hlong⟩ : ∃ item ∈ items, ¬item.IsShort := by
    simpa [Native.isShort_list_iff] using hlong
  have hparts : ∀ item ∈ items, FailsOnly (· = overlongRefusal) (writeChars item) :=
    fun item hitem => writeChars_failsOnly (hitems item hitem) (hrefused item hitem)
  rw [writeAll_eq_mapM, FailsOnly.mapM_eq_error hparts hitem (hrefused item hitem hlong)]
  rfl

theorem writeChars_of_not_isShort (hx : IsPortable x) (hlong : ¬x.IsShort) :
    writeChars x = .error overlongRefusal := by
  induction hx with
  | null | bool | text | blob | variant =>
      exact absurd (Native.isShort_of_integers_eq_nil rfl) hlong
  | int value =>
      rw [Native.isShort_int_iff, Bool.not_eq_false] at hlong
      exact writeInt_of_overlong hlong
  | list hitems ih => exact writeAll_of_not_isShort hitems ih hlong
  | tuple hitems ih => exact writeAll_of_not_isShort hitems ih hlong
  | @map entries _ hvalues ih =>
      obtain ⟨entry, hentry, hlong⟩ : ∃ entry ∈ entries, ¬entry.2.IsShort := by
        simpa [isShort_keyed_iff] using hlong
      let written (entry : String × Native) : String × Except WriteError (List Char) :=
        (entry.1, writeChars entry.2)
      have hmembers : ∀ member ∈ entries.map written, FailsOnly (· = overlongRefusal) member.2 :=
        List.forall_mem_map.mpr (fun entry hentry =>
          writeChars_failsOnly (hvalues entry hentry) (ih entry hentry))
      have hrefused := writeObject_eq_error hmembers (List.mem_map_of_mem hentry)
        (ih entry hentry hlong)
      rw [List.map_map] at hrefused
      rw [writeChars, writeEntries_eq_map, List.map_map]
      exact hrefused

/-- Values of null, truth values, integers, texts, blocks of bytes, built variants, lists, tuples
and maps under texts have canonical text, as long as no integer among them has too many digits. It
is read back as the value, up to the order of members and with lists for tuples, numbers for bytes
and printed forms for variants. And it is the same text for every value that differs in the order
of members alone. An integer of too many digits is what all others are refused for. -/
theorem canonical_text_is_reversible (hx : IsPortable x) :
    (x.IsShort → ∃ text, write x = .ok text ∧
      (∃ back, read text = .ok back ∧ SameButOrder x.jsonForm back) ∧
      ∀ y, SameButOrder x y → write y = .ok text) ∧
    (¬x.IsShort → write x = .error (.unprintable .overlongInteger)) := by
  refine ⟨fun hshort => ?_, fun hlong => ?_⟩
  · obtain ⟨rendering, hcanonical, rfl⟩ := exists_isCanonical hx hshort
    have hwritten : ∀ y, SameButOrder rendering.value y →
        write y = .ok (String.ofList rendering.text) := by
      intro y hsame
      rw [write, hcanonical.written y hsame]
      rfl
    refine ⟨_, hwritten _ (.refl _), ⟨rendering.back, ?_, hcanonical.form⟩, hwritten⟩
    rw [read, String.toList_ofList, hcanonical.reads.readChars_eq]
  · rw [write, writeChars_of_not_isShort hx hlong]
    rfl

/-- Bytes, a tuple and a variant under keys that are out of order, at two depths. -/
def outOfOrder : Native :=
  .map ([("b", .tuple [.bytes [97, 0], .int (-5)]),
    ("a", .map ([("z", .variant (.boolean true)), ("\n", .null)].map keyed))].map keyed)

/-- The same under keys that are in order. -/
def inOrder : Native :=
  .map ([("a", .map ([("\n", .null), ("z", .variant (.boolean true))].map keyed)),
    ("b", .tuple [.bytes [97, 0], .int (-5)])].map keyed)

theorem canonical_text_is_reversible_nested :
    IsPortable outOfOrder ∧ SameButOrder outOfOrder inOrder ∧
      ∃ text, write outOfOrder = .ok text ∧ write inOrder = .ok text ∧
        ∃ back, read text = .ok back ∧ SameButOrder outOfOrder.jsonForm back := by
  have hmade : Variant.ofBasic .boolean (.bool true) = .ok (.boolean true) := rfl
  have hinner : IsPortable (.map ([("z", .variant (.boolean true)), ("\n", .null)].map keyed)) := by
    refine .map (by decide) ?_
    simpa using ⟨.variant (.basic hmade), .null⟩
  have hportable : IsPortable outOfOrder := by
    refine .map (by decide) ?_
    simpa using ⟨.tuple (by simpa using ⟨.blob _ _, .int _⟩), hinner⟩
  have hsameInner : SameButOrder
      (.map ([("z", .variant (.boolean true)), ("\n", .null)].map keyed))
      (.map ([("\n", .null), ("z", .variant (.boolean true))].map keyed)) :=
    .map rfl (List.forall₂_same.mpr (fun x _ => .refl x)) ((List.Perm.swap _ _ []).map keyed)
  have hsame : SameButOrder outOfOrder inOrder := by
    refine .map ?_ ?_ ((List.Perm.swap ("b", _) ("a", _) []).map keyed)
    · rfl
    · exact .cons (.refl _) (.cons hsameInner .nil)
  have hshort : outOfOrder.IsShort := by decide
  obtain ⟨text, hwrite, hread, hothers⟩ := (canonical_text_is_reversible hportable).1 hshort
  exact ⟨hportable, hsame, text, hwrite, hothers inOrder hsame, hread⟩

/-- The smallest positive integer of too many digits has no canonical text, and is not read from
its digits either. -/
theorem no_text_of_overlong_integer :
    IsPortable (.int (10 ^ 4300)) ∧
      (¬∃ text, write (.int (10 ^ 4300)) = .ok text) ∧
      ∃ fault, read (String.ofList (intText (10 ^ 4300))) = .error fault ∧
        fault.reason = .overlongInteger (Numeral.digitCount (10 ^ 4300)) := by
  have hlong : Numeral.isOverlong (10 ^ 4300) = true := Numeral.isOverlong_pow
  refine ⟨.int _, ?_, ⟨_, 0⟩, ?_, rfl⟩
  · rintro ⟨text, hwrite⟩
    rw [write, writeChars, writeInt_of_overlong hlong] at hwrite
    cases hwrite
  · rw [read, String.toList_ofList, readChars_of_overlong hlong]

example : write outOfOrder =
    .ok "\x7b\"a\":\x7b\"\\n\":null,\"z\":\"true\"\x7d,\"b\":[[97,0],-5]\x7d" := by
  cbv

end Json

end TypedVariant
