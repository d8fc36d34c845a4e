import TypedVariant.Proofs.Unpack.Depth

/-!
# Shallow, deep and recursive unpacking

Where a recursive unpacking succeeds, so do the others, and each is got from the one
before it. A deep unpacking is a shallow one in which the children are replaced by
what they unpack to themselves; a recursive unpacking is a deep one in which the same
is done with the variants that are left in it, which are the contents of boxes. Maps
keep their keys all the way, whatever became of repeated keys when they were made.
-/

namespace TypedVariant

namespace Native

/-! ## Replacing variants -/

/-- Replaces a value that is a variant. -/
def replace (f : Variant → Except Error Native) : Native → Except Error Native
  | variant v => f v
  | x => .ok x

/-- Replaces the variants that a value shows at once: itself, the items of a list, the values of a
map. -/
def replaceChildren (f : Variant → Except Error Native) : Native → Except Error Native
  | variant v => f v
  | list items => do return list (← items.mapM (replace f))
  | map entries => do
      return map (← entries.mapM (fun entry => do return (entry.1, ← replace f entry.2)))
  | x => .ok x

mutual

/-- Replaces all variants in a value, however deep in lists and in the values of maps, which are the
collections that unpacking makes. -/
def replaceVariants (f : Variant → Except Error Native) : Native → Except Error Native
  | variant v => f v
  | list items => do return list (← replaceVariantsAll f items)
  | map entries => do return map (← replaceVariantsOfValues f entries)
  | null => .ok null
  | bool value => .ok (bool value)
  | int value => .ok (int value)
  | double value => .ok (double value)
  | text value => .ok (text value)
  | blob kind data => .ok (blob kind data)
  | tuple items => .ok (tuple items)
  | set items => .ok (set items)
  | stream items mark => .ok (stream items mark)
  | range start stop step => .ok (range start stop step)
  | object mark => .ok (object mark)
  | sigType type => .ok (sigType type)
  | dictionary v mark => .ok (dictionary v mark)
  | foreign container => .ok (foreign container)
termination_by structural x => x

def replaceVariantsAll (f : Variant → Except Error Native) :
    List Native → Except Error (List Native)
  | [] => .ok []
  | x :: rest => do
      let y ← x.replaceVariants f
      return y :: (← replaceVariantsAll f rest)
termination_by structural items => items

def replaceVariantsOfValues (f : Variant → Except Error Native) :
    List (Native × Native) → Except Error (List (Native × Native))
  | [] => .ok []
  | (key, value) :: rest => do
      let y ← value.replaceVariants f
      return (key, y) :: (← replaceVariantsOfValues f rest)
termination_by structural entries => entries

end

variable {f : Variant → Except Error Native}

theorem replaceVariantsAll_eq_mapM (items : List Native) :
    replaceVariantsAll f items = items.mapM (replaceVariants f) := by
  induction items with
  | nil => rfl
  | cons x rest ih => rw [replaceVariantsAll, ih, List.mapM_cons]

theorem replaceVariantsOfValues_eq_mapM (entries : List (Native × Native)) :
    replaceVariantsOfValues f entries =
      entries.mapM (fun entry => do return (entry.1, ← entry.2.replaceVariants f)) := by
  induction entries with
  | nil => rfl
  | cons entry rest ih =>
      rw [replaceVariantsOfValues, ih, List.mapM_cons, bind_assoc]
      simp only [pure_bind]

/-! ## Maps with the same keys -/

/-- Entries in step: the keys are the same, one by one, and have a property; the values are
related. -/
def InStep (P : Native → Prop) (R : Native → Native → Prop)
    (entries others : List (Native × Native)) : Prop :=
  List.Forall₂ (fun entry other => (entry.1 = other.1 ∧ P entry.1) ∧ R entry.2 other.2)
    entries others

variable {P : Native → Prop} {R : Native → Native → Prop}

/-- Storing related values under one key keeps entries in step, whether the key was there or not. -/
theorem InStep.insert {entries others : List (Native × Native)} {key value other : Native}
    (hstep : InStep P R entries others) (hkey : P key) (hvalue : R value other) :
    InStep P R (insert key value entries) (insert key other others) := by
  induction hstep with
  | nil => exact .cons ⟨⟨rfl, hkey⟩, hvalue⟩ .nil
  | @cons entry other entries others hentry hrest ih =>
      obtain ⟨⟨hsame, hfound⟩, hvalues⟩ := hentry
      obtain ⟨k, v⟩ := entry
      obtain ⟨k', v'⟩ := other
      obtain rfl : k = k' := hsame
      rw [Native.insert, Native.insert]
      split
      next => exact .cons ⟨⟨rfl, hfound⟩, hvalue⟩ hrest
      next => exact .cons ⟨⟨rfl, hfound⟩, hvalues⟩ ih

/-- Attempts at the values of entries in step give the other entries. -/
theorem InStep.mapM {attempt : Native → Except Error Native}
    {entries others : List (Native × Native)}
    (hstep : InStep P (fun x y => attempt x = .ok y) entries others) :
    entries.mapM (fun entry => do return (entry.1, ← attempt entry.2)) = .ok others := by
  rw [mapM_eq_ok_iff_forall₂]
  refine hstep.imp ?_
  rintro ⟨key, value⟩ ⟨otherKey, otherValue⟩ ⟨⟨hkey, -⟩, hvalue⟩
  rw [hvalue, hkey]
  rfl

/-- Pairs made from one list are in step if their keys are the same. -/
theorem inStep_map {ι : Type} {pair other : ι → Native × Native} {indices : List ι}
    (hkeys : ∀ i ∈ indices, (pair i).1 = (other i).1 ∧ P (pair i).1)
    (hvalues : ∀ i ∈ indices, R (pair i).2 (other i).2) :
    InStep P R (indices.map pair) (indices.map other) := by
  rw [InStep, List.forall₂_map_left_iff, List.forall₂_map_right_iff, List.forall₂_same]
  exact fun i hi => ⟨hkeys i hi, hvalues i hi⟩

/-- Maps that are made of pairs in step have entries in step. -/
theorem InStep.mapOf {pairs others : List (Native × Native)} (hstep : InStep P R pairs others) :
    ∃ entries otherEntries, mapOf pairs = .map entries ∧ mapOf others = .map otherEntries ∧
      InStep P R entries otherEntries := by
  -- What was stored before stays in step too, so the fold is followed from any entries in step.
  suffices hfold : ∀ entries otherEntries, InStep P R entries otherEntries →
      InStep P R (pairs.foldl (fun entries pair => Native.insert pair.1 pair.2 entries) entries)
        (others.foldl (fun entries pair => Native.insert pair.1 pair.2 entries) otherEntries) from
    ⟨_, _, rfl, rfl, hfold [] [] .nil⟩
  induction hstep with
  | nil => exact fun _ _ hentries => hentries
  | @cons pair other pairs others hpair _ ih =>
      intro entries otherEntries hentries
      obtain ⟨⟨hsame, hkey⟩, hvalue⟩ := hpair
      rw [List.foldl_cons, List.foldl_cons, ← hsame]
      exact ih _ _ (hentries.insert hkey hvalue)

/-- If one value is a map, so is the other, with the same keys in the same order. -/
def KeepsKeys (x y : Native) : Prop :=
  ∀ entries, x = .map entries →
    ∃ others, y = .map others ∧ others.map Prod.fst = entries.map Prod.fst

theorem keys_of_mapM {attempt : Native → Except Error Native}
    {entries others : List (Native × Native)}
    (hothers : entries.mapM (fun entry => do return (entry.1, ← attempt entry.2)) = .ok others) :
    others.map Prod.fst = entries.map Prod.fst := by
  rw [mapM_eq_ok_iff_forall₂] at hothers
  induction hothers with
  | nil => rfl
  | cons hentry _ ih =>
      obtain ⟨value, -, hpair⟩ := bind_eq_ok_iff.mp hentry
      obtain rfl := Except.ok.inj hpair
      rw [List.map_cons, List.map_cons, ih]

theorem keepsKeys_of_replaceChildren {x y : Native} (hy : x.replaceChildren f = .ok y) :
    x.KeepsKeys y := by
  rintro entries rfl
  obtain ⟨others, hothers, hmap⟩ := bind_eq_ok_iff.mp hy
  exact ⟨others, (Except.ok.inj hmap).symm, keys_of_mapM hothers⟩

theorem keepsKeys_of_replaceVariants {x y : Native} (hy : x.replaceVariants f = .ok y) :
    x.KeepsKeys y := by
  rintro entries rfl
  rw [replaceVariants, replaceVariantsOfValues_eq_mapM] at hy
  obtain ⟨others, hothers, hmap⟩ := bind_eq_ok_iff.mp hy
  exact ⟨others, (Except.ok.inj hmap).symm, keys_of_mapM hothers⟩

theorem variantsAll_eq_nil {items : List Native} (hitems : ∀ item ∈ items, item.variants = []) :
    variantsAll items = [] := by
  apply List.eq_nil_iff_forall_not_mem.mpr
  intro v hv
  obtain ⟨item, hitem, hv⟩ := mem_variantsAll.mp hv
  simp [hitems item hitem] at hv

/-- A map holds no variants but those of the pairs that it is made of. -/
theorem variants_mapOf {pairs : List (Native × Native)}
    (hpairs : ∀ pair ∈ pairs, pair.1.variants = [] ∧ pair.2.variants = []) :
    (mapOf pairs).variants = [] := by
  have hstep : InStep (fun key => key.variants = []) (fun value _ => value.variants = [])
      pairs pairs :=
    List.forall₂_same.mpr (fun pair hpair => ⟨⟨rfl, (hpairs pair hpair).1⟩, (hpairs pair hpair).2⟩)
  obtain ⟨entries, others, hentries, hothers, hstep⟩ := hstep.mapOf
  obtain rfl : entries = others := Native.map.inj (hentries.symm.trans hothers)
  rw [hentries]
  apply List.eq_nil_iff_forall_not_mem.mpr
  intro v hv
  obtain ⟨entry, hentry, hv⟩ := mem_variantsOfEntries.mp hv
  obtain ⟨⟨-, hkey⟩, hvalue⟩ := List.forall₂_same.mp hstep entry hentry
  simp [hkey, hvalue] at hv

end Native

namespace Variant

variable {v : Variant} {type : SigType} {f : Variant → Except Error Native}

/-! ## Values of the three openings -/

theorem unpacked_basic {code : BasicCode} (htyped : HasType v (.basic code))
    (opening other : Opening) : v.unpacked opening = v.unpacked other := by
  cases htyped <;> rfl

theorem replaceVariants_pair_iff {a b c d : Native} :
    (Native.list [a, b]).replaceVariants f = .ok (.list [c, d]) ↔
      a.replaceVariants f = .ok c ∧ b.replaceVariants f = .ok d := by
  rw [Native.replaceVariants, Native.replaceVariantsAll_eq_mapM, bind_eq_ok_iff]
  simp only [mapM_eq_ok_iff_forall₂]
  constructor
  · rintro ⟨answers, hanswers, hlist⟩
    obtain rfl : answers = [c, d] := Native.list.inj (Except.ok.inj hlist)
    simpa using hanswers
  · intro hboth
    exact ⟨[c, d], by simpa using hboth, rfl⟩

/-- Replacing the variants that are left in opened items. -/
theorem replaceVariants_items {items : List Variant}
    (hitems : ∀ item ∈ items,
      (item.unpacked .deep).replaceVariants f = .ok (item.unpacked .recursive)) :
    (Native.list (unpackedAll .deep items)).replaceVariants f =
      .ok (.list (unpackedAll .recursive items)) := by
  have hall : (items.map (unpackedChild .deep)).mapM (Native.replaceVariants f) =
      .ok (items.map (unpackedChild .recursive)) := mapM_map_eq_ok hitems
  rw [Native.replaceVariants, Native.replaceVariantsAll_eq_mapM, unpackedAll_eq_map,
    unpackedAll_eq_map, hall]
  rfl

/-- Replacing the variants that are left in the values of a dictionary. -/
theorem replaceVariants_entries {pairs : List (Variant × Variant)}
    (hkeys : ∀ pair ∈ pairs, pair.1.unpacked .deep = pair.1.unpacked .recursive)
    (hvalues : ∀ pair ∈ pairs,
      (pair.2.unpacked .deep).replaceVariants f = .ok (pair.2.unpacked .recursive)) :
    (Native.mapOf (unpackedEntries .deep (pairs.map ofPair))).replaceVariants f =
      .ok (.mapOf (unpackedEntries .recursive (pairs.map ofPair))) := by
  have hstep : Native.InStep (fun _ => True) (fun x y => x.replaceVariants f = .ok y)
      (pairs.map (unpackedPair .deep)) (pairs.map (unpackedPair .recursive)) :=
    Native.inStep_map (fun pair hpair => ⟨hkeys pair hpair, trivial⟩) hvalues
  obtain ⟨entries, others, hentries, hothers, hstep⟩ := hstep.mapOf
  rw [unpackedEntries_ofPair, unpackedEntries_ofPair, hentries, hothers, Native.replaceVariants,
    Native.replaceVariantsOfValues_eq_mapM, hstep.mapM]
  rfl

/-- A recursive unpacking is a deep one in which the variants that are left are replaced by what
they unpack to. -/
theorem replaceVariants_unpacked (htyped : HasType v type)
    (hf : ∀ w, v.Holds w → f w = .ok (w.unpacked .recursive)) :
    (v.unpacked .deep).replaceVariants f = .ok (v.unpacked .recursive) := by
  induction htyped with
  | boolean | integer | double | text | nothing | bytes => rfl
  | box => exact hf _ (.child rfl List.mem_cons_self (.itself _))
  | just _ ih => exact ih (fun w hw => hf w (.child rfl List.mem_cons_self hw))
  | tuple parts _ ih =>
      apply replaceVariants_items
      rw [List.forall_mem_map]
      exact fun part hpart =>
        ih part hpart (fun w hw => hf w (.child rfl (List.mem_map_of_mem hpart) hw))
  | @array element items helement _ hitems ih =>
      have hbelow : ∀ item ∈ items,
          (item.unpacked .deep).replaceVariants f = .ok (item.unpacked .recursive) :=
        fun item hitem => ih item hitem (fun w hw => hf w (.child rfl hitem hw))
      by_cases hdictionary : (array element.text items).isDictionaryLike = true
      · obtain ⟨pairs, rfl, hpairs⟩ := exists_pairs helement hitems hdictionary
        rw [unpacked, unpacked, if_pos hdictionary, if_pos hdictionary]
        rw [List.forall_mem_map] at hbelow
        apply replaceVariants_entries
        · intro pair hpair
          cases hpairs pair hpair with
          | entry hkey _ => exact unpacked_basic hkey _ _
        · exact fun pair hpair => (replaceVariants_pair_iff.mp (hbelow pair hpair)).2
      · rw [unpacked, unpacked, if_neg hdictionary, if_neg hdictionary]
        exact replaceVariants_items hbelow
  | entry _ _ ihkey ihvalue =>
      exact replaceVariants_pair_iff.mpr
        ⟨ihkey (fun w hw => hf w (.child rfl (by simp) hw)),
          ihvalue (fun w hw => hf w (.child rfl (by simp) hw))⟩

/-- Replacing the children that a shallow unpacking shows. -/
theorem replaceChildren_items {items : List Variant}
    (hitems : ∀ item ∈ items, f item = .ok (item.unpacked .deep)) :
    (Native.list (items.map .variant)).replaceChildren f =
      .ok (.list (items.map (unpacked .deep))) := by
  have hall : (items.map .variant).mapM (Native.replace f) =
      .ok (items.map (unpacked .deep)) := mapM_map_eq_ok hitems
  rw [Native.replaceChildren, hall]
  rfl

/-- Replacing the values of a dictionary, whose keys are deep already. -/
theorem replaceChildren_entries {pairs : List (Variant × Variant)}
    (hvalues : ∀ pair ∈ pairs, f pair.2 = .ok (pair.2.unpacked .deep)) :
    (Native.mapOf (unpackedEntries .shallow (pairs.map ofPair))).replaceChildren f =
      .ok (.mapOf (unpackedEntries .deep (pairs.map ofPair))) := by
  have hstep : Native.InStep (fun _ => True) (fun x y => x.replace f = .ok y)
      (pairs.map (unpackedPair .shallow)) (pairs.map (unpackedPair .deep)) :=
    Native.inStep_map (fun pair hpair => ⟨rfl, trivial⟩) hvalues
  obtain ⟨entries, others, hentries, hothers, hstep⟩ := hstep.mapOf
  rw [unpackedEntries_ofPair, unpackedEntries_ofPair, hentries, hothers, Native.replaceChildren,
    hstep.mapM]
  rfl

/-- A deep unpacking is a shallow one in which the children are replaced by what they unpack to,
unless it is that of a box. -/
theorem replaceChildren_unpacked (htyped : HasType v type) (hclosed : ∀ content, v ≠ .box content)
    (hf : ∀ w, v.Holds w → f w = .ok (w.unpacked .deep)) :
    (v.unpacked .shallow).replaceChildren f = .ok (v.unpacked .deep) := by
  cases htyped with
  | boolean | integer | double | text | nothing | bytes => rfl
  | box => exact absurd rfl (hclosed _)
  | just => exact hf _ (.child rfl List.mem_cons_self (.itself _))
  | tuple parts =>
      rw [unpacked, unpacked, unpackedAll_eq_map, unpackedAll_eq_map]
      exact replaceChildren_items (fun member hmember => hf _ (.child rfl hmember (.itself _)))
  | @array element items helement _ hitems =>
      have hbelow : ∀ item ∈ items, ∀ w, item.Holds w → f w = .ok (w.unpacked .deep) :=
        fun item hitem w hw => hf w (.child rfl hitem hw)
      by_cases hdictionary : (array element.text items).isDictionaryLike = true
      · obtain ⟨pairs, rfl, -⟩ := exists_pairs helement hitems hdictionary
        rw [unpacked, unpacked, if_pos hdictionary, if_pos hdictionary]
        rw [List.forall_mem_map] at hbelow
        apply replaceChildren_entries
        intro pair hpair
        exact hbelow pair hpair _ (.child rfl (by simp) (.itself _))
      · rw [unpacked, unpacked, if_neg hdictionary, if_neg hdictionary, unpackedAll_eq_map,
          unpackedAll_eq_map]
        exact replaceChildren_items (fun item hitem => hbelow item hitem _ (.itself _))
  | @entry key value =>
      have hboth : ∀ child ∈ [key, value], f child = .ok (child.unpacked .deep) :=
        fun child hchild => hf child (.child rfl hchild (.itself _))
      exact replaceChildren_items hboth

/-- Nothing that a recursive unpacking gives is a variant. -/
theorem variants_unpacked (htyped : HasType v type) : (v.unpacked .recursive).variants = [] := by
  induction htyped with
  | boolean | integer | double | text | nothing | bytes => rfl
  | box _ ih | just _ ih => exact ih
  | tuple parts _ ih =>
      rw [unpacked, unpackedAll_eq_map]
      apply Native.variantsAll_eq_nil
      rw [List.forall_mem_map, List.forall_mem_map]
      exact ih
  | @array element items helement _ hitems ih =>
      by_cases hdictionary : (array element.text items).isDictionaryLike = true
      -- An entry of a dictionary is no item of the value, but would be a list of its key and value.
      · obtain ⟨pairs, rfl, hpairs⟩ := exists_pairs helement hitems hdictionary
        rw [unpacked, if_pos hdictionary, unpackedEntries_ofPair]
        rw [List.forall_mem_map] at ih
        apply Native.variants_mapOf
        rw [List.forall_mem_map]
        intro pair hpair
        have hopened : (ofPair pair).unpacked .recursive =
            .list [pair.1.unpacked .recursive, pair.2.unpacked .recursive] := rfl
        have hentry := ih pair hpair
        rw [hopened, Native.variants] at hentry
        have hboth : (pair.1.unpacked .recursive).variants = [] ∧
            (pair.2.unpacked .recursive).variants = [] := by
          simpa [Native.variantsAll] using hentry
        exact hboth
      · rw [unpacked, if_neg hdictionary, unpackedAll_eq_map]
        apply Native.variantsAll_eq_nil
        rw [List.forall_mem_map]
        exact ih
  | entry _ _ ihkey ihvalue =>
      exact Native.variantsAll_eq_nil (by simpa using ⟨ihkey, ihvalue⟩)

/-! ## Reaching less far -/

theorem reachBelow_le_reachBelow {items : List Variant} {opening other : Opening}
    (hitems : ∀ item ∈ items, item.reach opening ≤ item.reach other) :
    reachBelow opening items ≤ reachBelow other items := by
  rw [reachBelow_le_iff]
  intro item hitem
  have hbelow : item.reach other < reachBelow other items := reach_lt_reachBelow hitem
  have hreach := hitems item hitem
  omega

/-- No opening reaches farther than the recursive one. -/
theorem reach_le_recursive (htyped : HasType v type) (opening : Opening) :
    v.reach opening ≤ v.reach .recursive := by
  induction htyped with
  | boolean | integer | double | text | nothing | bytes => exact Nat.zero_le _
  | box _ ih | just _ ih =>
      rw [reach, reach]
      split
      next => exact Nat.succ_le_succ ih
      next => exact Nat.zero_le _
  | tuple parts _ ih =>
      rw [reach, reach]
      split
      next => exact reachBelow_le_reachBelow (List.forall_mem_map.mpr ih)
      next => exact Nat.zero_le _
  | @array element items helement _ hitems ih =>
      rw [reach, reach]
      split
      next => exact reachBelow_le_reachBelow ih
      next =>
        split
        next hentries =>
          -- The keys that are opened in every case lie two levels below.
          rw [Bool.and_eq_true] at hentries
          obtain ⟨pairs, rfl, -⟩ := exists_pairs helement hitems hentries.1
          cases pairs with
          | nil => simp at hentries
          | cons pair rest =>
              have hfirst : (ofPair pair).reach .recursive <
                  reachBelow .recursive ((pair :: rest).map ofPair) :=
                reach_lt_reachBelow List.mem_cons_self
              have hentry : 0 < (ofPair pair).reach .recursive := Nat.succ_pos _
              exact Nat.le_trans (Nat.succ_le_succ hentry) hfirst
        next => exact Nat.zero_le _
  | entry _ _ ihkey ihvalue =>
      rw [reach, reach]
      split
      next =>
        change max _ _ + 1 ≤ max _ _ + 1
        omega
      next => exact Nat.zero_le _

/-- The recursive opening reads back all type strings that others do. -/
theorem isReadable_of_recursive (htyped : HasType v type) (opening : Opening)
    (hreadable : v.IsReadable .recursive) : v.IsReadable opening := by
  induction htyped with
  | boolean | integer | double | text | nothing | bytes => trivial
  | box _ ih | just _ ih => exact fun _ => ih (hreadable rfl)
  | tuple parts _ ih =>
      have hmembers := areReadable_iff.mp (hreadable rfl)
      intro _
      rw [areReadable_iff, List.forall_mem_map]
      rw [List.forall_mem_map] at hmembers
      exact fun part hpart => ih part hpart (hmembers part hpart)
  | array _ _ _ ih =>
      obtain ⟨htype, hitems⟩ := hreadable
      refine ⟨htype, fun _ => areReadable_iff.mpr ?_⟩
      exact fun item hitem => ih item hitem (areReadable_iff.mp (hitems rfl) item hitem)
  | entry _ _ ihkey ihvalue =>
      exact fun _ => ⟨ihkey (hreadable rfl).1, ihvalue (hreadable rfl).2⟩

/-- A child lies within the reach of the recursive opening, and is read back with its container. -/
theorem fits_of_child {child : Variant} {children : List Variant}
    (hchildren : v.children? = some children) (hchild : child ∈ children)
    (hreadable : v.IsReadable .recursive) :
    child.reach .recursive ≤ v.reach .recursive ∧ child.IsReadable .recursive := by
  cases v with
  | box content | just content =>
      obtain rfl := Option.some.inj hchildren
      obtain rfl := List.mem_singleton.mp hchild
      exact ⟨Nat.le_succ _, hreadable rfl⟩
  | nothing =>
      obtain rfl := Option.some.inj hchildren
      simp at hchild
  | bytes blob =>
      obtain rfl := Option.some.inj hchildren
      obtain ⟨b, -, rfl⟩ := List.mem_map.mp hchild
      exact ⟨Nat.le_refl _, trivial⟩
  | array element items =>
      obtain rfl := Option.some.inj hchildren
      exact ⟨Nat.le_of_lt (reach_lt_reachBelow hchild),
        areReadable_iff.mp (hreadable.2 rfl) child hchild⟩
  | tuple members =>
      obtain rfl := Option.some.inj hchildren
      exact ⟨Nat.le_of_lt (reach_lt_reachBelow hchild),
        areReadable_iff.mp (hreadable rfl) child hchild⟩
  | entry key value =>
      obtain rfl := Option.some.inj hchildren
      obtain ⟨hkey, hvalue⟩ := hreadable rfl
      rw [List.mem_pair] at hchild
      obtain rfl | rfl := hchild
      · exact ⟨Nat.le_succ_of_le (Nat.le_max_left _ _), hkey⟩
      · exact ⟨Nat.le_succ_of_le (Nat.le_max_right _ _), hvalue⟩
  | _ => simp [children?] at hchildren

/-- All that a variant holds is unpacked recursively where the variant is. -/
theorem unpack_recursive_of_holds {w : Variant} {settings : Settings} (hv : v.IsTyped)
    (hholds : v.Holds w) (hreach : (v.reach .recursive : Int) ≤ settings.maxDepth)
    (hreadable : v.IsReadable .recursive) :
    w.unpack settings .recursive = .ok (w.unpacked .recursive) := by
  induction hholds with
  | itself =>
      obtain ⟨type, htyped⟩ := hv
      exact (settles_unpackAt htyped settings .recursive 0).eq_ok_iff.mpr
        ⟨by omega, hreadable, rfl⟩
  | child hchildren hchild _ ih =>
      obtain ⟨hchildReach, hchildReadable⟩ := fits_of_child hchildren hchild hreadable
      exact ih (hv.children? hchildren _ hchild) (by omega) hchildReadable

/-- Where a recursive unpacking has a value, so has any other. -/
theorem unpack_of_unpack_recursive {settings : Settings} {r : Native} (htyped : HasType v type)
    (hr : v.unpack settings .recursive = .ok r) (opening : Opening) :
    v.unpack settings opening = .ok (v.unpacked opening) := by
  obtain ⟨hreach, hreadable, -⟩ :=
    (settles_unpackAt htyped settings .recursive 0).eq_ok_iff.mp hr
  have hle := reach_le_recursive htyped opening
  exact (settles_unpackAt htyped settings opening 0).eq_ok_iff.mpr
    ⟨by omega, isReadable_of_recursive htyped opening hreadable, rfl⟩

/-- Where a built variant is unpacked recursively, it is unpacked in all ways. Replacing the
children that the shallow value shows by their own deep values gives the deep value, except that
boxes stay closed; replacing the variants that the deep value has left by their own recursive values
gives the recursive value, which has none left. Maps keep their keys. -/
theorem openings_agree (hbuilt : Built v) {settings : Settings} {r : Native}
    (hr : v.unpack settings .recursive = .ok r) :
    ∃ s d, v.unpack settings .shallow = .ok s ∧ v.unpack settings .deep = .ok d ∧
      (∀ content, v = .box content → s = .variant content ∧ d = .variant content) ∧
      ((∀ content, v ≠ .box content) → s.replaceChildren (unpack settings .deep) = .ok d) ∧
      d.replaceVariants (unpack settings .recursive) = .ok r ∧ r.variants = [] ∧
      s.KeepsKeys d ∧ d.KeepsKeys r := by
  obtain ⟨type, htyped⟩ := hbuilt.isTyped
  obtain ⟨hreach, hreadable, rfl⟩ :=
    (settles_unpackAt htyped settings .recursive 0).eq_ok_iff.mp hr
  have hrecursive : ∀ w, v.Holds w → w.unpack settings .recursive = .ok (w.unpacked .recursive) :=
    fun w hw => unpack_recursive_of_holds hbuilt.isTyped hw (by omega) hreadable
  have hdeep : ∀ w, v.Holds w → w.unpack settings .deep = .ok (w.unpacked .deep) := by
    intro w hw
    obtain ⟨heldType, hheld⟩ := hbuilt.isTyped.of_holds hw
    exact unpack_of_unpack_recursive hheld (hrecursive w hw) .deep
  have hboxes : ∀ content, v = .box content →
      v.unpacked .shallow = .variant content ∧ v.unpacked .deep = .variant content := by
    rintro content rfl
    exact ⟨rfl, rfl⟩
  have hchildren : (∀ content, v ≠ .box content) →
      (v.unpacked .shallow).replaceChildren (unpack settings .deep) = .ok (v.unpacked .deep) :=
    fun hclosed => replaceChildren_unpacked htyped hclosed hdeep
  have hvariants := replaceVariants_unpacked htyped hrecursive
  refine ⟨_, _, unpack_of_unpack_recursive htyped hr .shallow,
    unpack_of_unpack_recursive htyped hr .deep, hboxes, hchildren, hvariants,
    variants_unpacked htyped, ?_, Native.keepsKeys_of_replaceVariants hvariants⟩
  by_cases hbox : ∃ content, v = .box content
  · obtain ⟨content, rfl⟩ := hbox
    rintro entries ⟨⟩
  · exact Native.keepsKeys_of_replaceChildren (hchildren (fun content heq => hbox ⟨content, heq⟩))

/-- Of two entries with the same key the first gives the place and the second the value, in all
three ways. -/
theorem openings_agree_repeated_key :
    ∃ v r, Built v ∧ v = .array "{sv}" [.entry (.text .string "a") (.box (.boolean true)),
        .entry (.text .string "a") (.box (.boolean false))] ∧
      v.unpack {} .recursive = .ok r ∧ r = .map [(.text "a", .bool false)] ∧
      ∃ s d, v.unpack {} .shallow = .ok s ∧ v.unpack {} .deep = .ok d ∧
        s.replaceChildren (unpack {} .deep) = .ok d ∧
        d.replaceVariants (unpack {} .recursive) = .ok r ∧ s.KeepsKeys d ∧ d.KeepsKeys r := by
  have hkey : Built (.text .string "a") := @Built.basic (.text .string) (.text "a") _ (by rfl)
  have hentry (value : Bool) : Built (.entry (.text .string "a") (.box (.boolean value))) := by
    have hvalue : Built (.boolean value) := @Built.basic .boolean (.bool value) _ (by rfl)
    have hbox : Built (.box (.boolean value)) :=
      @Built.box (.variant (.boolean value)) _ (by simpa [Native.variants] using hvalue) (by rfl)
    exact @Built.entry (.variant (.text .string "a")) (.variant (.box (.boolean value))) _
      (by simpa [Native.variants] using hkey) (by simpa [Native.variants] using hbox) (by rfl)
  have hbuilt : Built (.array "{sv}" [.entry (.text .string "a") (.box (.boolean true)),
      .entry (.text .string "a") (.box (.boolean false))]) := by
    refine @Built.array none (.list [.variant (.entry (.text .string "a") (.box (.boolean true))),
      .variant (.entry (.text .string "a") (.box (.boolean false)))]) _ (by simp) ?_ (by rfl)
    simpa [Native.variants, Native.variantsAll] using ⟨hentry true, hentry false⟩
  have hr : unpack {} .recursive (.array "{sv}" [.entry (.text .string "a") (.box (.boolean true)),
      .entry (.text .string "a") (.box (.boolean false))]) =
      .ok (.map [(.text "a", .bool false)]) := by rfl
  obtain ⟨s, d, hs, hd, -, hchildren, hvariants, -, hkeys, hdeepKeys⟩ := openings_agree hbuilt hr
  exact ⟨_, _, hbuilt, rfl, hr, rfl, s, d, hs, hd, hchildren (by simp), hvariants, hkeys, hdeepKeys⟩

end Variant

end TypedVariant
