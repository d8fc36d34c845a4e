import TypedVariant.Proofs.Unpack.Step
import TypedVariant.Proofs.Variant.Built

/-!
# What unpacking ends with

A variant has one value for each way of opening it, which does not depend on where
the variant lies or on any limit. Whether unpacking comes to this value depends on
two things alone: how far it reaches into the variant, and whether the type
strings of the arrays that it meets can be read back. If they can, reaching too
far is the only way to fail.
-/

namespace TypedVariant

/-- How keys are opened: at least deep, so that they can serve as keys. -/
def Opening.ofKeys : Opening → Opening
  | shallow => deep
  | deep => deep
  | recursive => recursive

namespace Variant

/-! ## The value, the reach, and the types that are read back -/

mutual

/-- The value of a variant that is opened to its end. -/
def unpacked (opening : Opening) : Variant → Native
  | boolean value => .bool value
  | integer _ value => .int value
  | double value => .double value
  | text _ value => .text value
  | box content => if opening.opensBoxes then content.unpacked opening else .variant content
  | foreignBox content => .foreign content
  | nothing _ => .null
  | just content => if opening.opensChildren then content.unpacked opening else .variant content
  | bytes blob => .bytes blob
  | array element items =>
      if (array element items).isDictionaryLike then .mapOf (unpackedEntries opening items)
      else .list (unpackedAll opening items)
  | tuple members => .list (unpackedAll opening members)
  | entry key value =>
      if opening.opensChildren then .list [key.unpacked opening, value.unpacked opening]
      else .list [.variant key, .variant value]
  | unknown _ content => content
termination_by structural v => v

/-- The children of a container as items of a list: opened where children are, and else as they
are. -/
def unpackedAll (opening : Opening) : List Variant → List Native
  | [] => []
  | v :: rest =>
      (if opening.opensChildren then v.unpacked opening else .variant v) ::
        unpackedAll opening rest
termination_by structural items => items

/-- The entries of a dictionary as pairs. Keys are opened in every case. -/
def unpackedEntries (opening : Opening) : List Variant → List (Native × Native)
  | [] => []
  | entry key value :: rest =>
      (key.unpacked opening.ofKeys,
        if opening.opensChildren then value.unpacked opening else .variant value) ::
        unpackedEntries opening rest
  | _ :: rest => unpackedEntries opening rest
termination_by structural items => items

end

mutual

/-- How many levels below a variant its unpacking reaches. A shallow unpacking goes beyond the
variant itself only for the keys of a dictionary, which lie two levels below. -/
def reach (opening : Opening) : Variant → Nat
  | box content => if opening.opensBoxes then content.reach opening + 1 else 0
  | just content => if opening.opensChildren then content.reach opening + 1 else 0
  | array element items =>
      if opening.opensChildren then reachBelow opening items
      else if (array element items).isDictionaryLike && !items.isEmpty then 2 else 0
  | tuple members => if opening.opensChildren then reachBelow opening members else 0
  | entry key value =>
      if opening.opensChildren then max (key.reach opening) (value.reach opening) + 1 else 0
  | boolean _ | integer _ _ | double _ | text _ _ | foreignBox _ | nothing _ | bytes _
  | unknown _ _ => 0
termination_by structural v => v

/-- One level more than the farthest reach of several variants; none if there are none. -/
def reachBelow (opening : Opening) : List Variant → Nat
  | [] => 0
  | v :: rest => max (v.reach opening + 1) (reachBelow opening rest)
termination_by structural items => items

end

/-- The type string can be read back, which is done within the greatest depth. -/
def HasReadableType (v : Variant) : Prop :=
  ∃ type, Signature.parse maxDepthLimit v.typeString = .ok type

mutual

/-- Every array that unpacking meets has a type string that can be read back. -/
def IsReadable (opening : Opening) : Variant → Prop
  | box content => opening.opensBoxes = true → content.IsReadable opening
  | just content => opening.opensChildren = true → content.IsReadable opening
  | array element items =>
      (array element items).HasReadableType ∧
        (opening.opensChildren = true → AreReadable opening items)
  | tuple members => opening.opensChildren = true → AreReadable opening members
  | entry key value =>
      opening.opensChildren = true → key.IsReadable opening ∧ value.IsReadable opening
  | boolean _ | integer _ _ | double _ | text _ _ | foreignBox _ | nothing _ | bytes _
  | unknown _ _ => True
termination_by structural v => v

def AreReadable (opening : Opening) : List Variant → Prop
  | [] => True
  | v :: rest => v.IsReadable opening ∧ AreReadable opening rest
termination_by structural items => items

end

/-- A child as an item of the list that its container unpacks to. -/
def unpackedChild (opening : Opening) (v : Variant) : Native :=
  if opening.opensChildren then v.unpacked opening else .variant v

theorem unpackedAll_eq_map {opening : Opening} {items : List Variant} :
    unpackedAll opening items = items.map (unpackedChild opening) := by
  induction items with
  | nil => rfl
  | cons v rest ih => rw [unpackedAll, ih, List.map_cons, unpackedChild]

/-- The entry of a key and a value. -/
def ofPair (pair : Variant × Variant) : Variant :=
  entry pair.1 pair.2

/-- An entry as a pair in the map that its dictionary unpacks to. -/
def unpackedPair (opening : Opening) (pair : Variant × Variant) : Native × Native :=
  (pair.1.unpacked opening.ofKeys, pair.2.unpackedChild opening)

theorem unpackedEntries_ofPair {opening : Opening} {pairs : List (Variant × Variant)} :
    unpackedEntries opening (pairs.map ofPair) = pairs.map (unpackedPair opening) := by
  induction pairs with
  | nil => rfl
  | cons pair rest ih =>
      rw [List.map_cons, ofPair, unpackedEntries, ih, List.map_cons, unpackedPair, unpackedChild]

theorem reachBelow_le_iff {opening : Opening} {items : List Variant} {n : Nat} :
    reachBelow opening items ≤ n ↔ ∀ v ∈ items, v.reach opening + 1 ≤ n := by
  induction items with
  | nil => simp [reachBelow]
  | cons v rest ih => simp only [reachBelow, Nat.max_le, ih, List.forall_mem_cons]

theorem reach_lt_reachBelow {opening : Opening} {items : List Variant} {v : Variant}
    (hv : v ∈ items) : v.reach opening < reachBelow opening items :=
  reachBelow_le_iff.mp (Nat.le_refl _) v hv

theorem areReadable_iff {opening : Opening} {items : List Variant} :
    AreReadable opening items ↔ ∀ v ∈ items, v.IsReadable opening := by
  induction items with
  | nil => simp [AreReadable]
  | cons v rest ih => simp [AreReadable, ih]

/-! ## Dictionaries among typed arrays -/

/-- A typed array is a dictionary where its elements are entries. -/
theorem isDictionaryLike_array_iff {element : SigType} {items : List Variant}
    (hwf : element.WellFormed false) :
    (array element.text items).isDictionaryLike = true ↔ element.IsEntry := by
  rw [isDictionaryLike, typeLetters, SigType.toList_text]
  constructor
  · intro hletters
    cases hwf with
    | dictEntry => exact ⟨_, _, rfl⟩
    | basic code =>
        have hletter : code.letter = '{' := by simpa [SigType.letters] using hletters
        have hcode := BasicCode.ofLetter?_letter code
        simp [hletter, BasicCode.ofLetter?] at hcode
    | wildcard hallowed => cases hallowed
    | _ => simp [SigType.letters] at hletters
  · rintro ⟨key, value, rfl⟩
    simp [SigType.letters]

/-- What has the type of an entry is one. -/
theorem exists_pair_of_isEntry {v : Variant} {type : SigType} (hentry : type.IsEntry)
    (htyped : HasType v type) : ∃ pair, HasType (ofPair pair) type ∧ v = ofPair pair := by
  obtain ⟨keyType, valueType, rfl⟩ := hentry
  cases htyped with
  | entry hkey hvalue => exact ⟨(_, _), .entry hkey hvalue, rfl⟩

/-- What all has the type of an entry is made of pairs. -/
theorem exists_pairs_of_isEntry {element : SigType} {items : List Variant}
    (hentry : element.IsEntry) (hitems : ∀ item ∈ items, HasType item element) :
    ∃ pairs : List (Variant × Variant), items = pairs.map ofPair ∧
      ∀ pair ∈ pairs, HasType (ofPair pair) element :=
  exists_eq_map (fun item hitem => exists_pair_of_isEntry hentry (hitems item hitem))

/-- The items of a typed array are entries if it is a dictionary. -/
theorem exists_pairs {element : SigType} {items : List Variant}
    (helement : element.WellFormed false) (hitems : ∀ item ∈ items, HasType item element)
    (hdictionary : (array element.text items).isDictionaryLike = true) :
    ∃ pairs : List (Variant × Variant), items = pairs.map ofPair ∧
      ∀ pair ∈ pairs, HasType (ofPair pair) element :=
  exists_pairs_of_isEntry ((isDictionaryLike_array_iff helement).mp hdictionary) hitems

/-! ## How an attempt ends -/

/-- An attempt ends with its value if it stays within the limit and all type strings can be read
back; it is refused for its depth only if it does not stay within the limit, and for anything else
only if some type string cannot be read back. -/
inductive Settles (settings : Settings) {α : Type} (fits readable : Prop) (value : α) :
    Except Error α → Prop
  | answered (hfits : fits) (hreadable : readable) :
      Settles settings fits readable value (.ok value)
  | tooDeep (hdeep : ¬fits) :
      Settles settings fits readable value (.error (.tooDeep settings.maxDepth))
  | unread (e : Error) (hunread : ¬readable) : Settles settings fits readable value (.error e)

namespace Settles

variable {settings : Settings} {α β : Type} {fits readable fits' readable' : Prop}
  {value : α} {attempt : Except Error α}

/-- Only an attempt that stays within the limit and reads every type string is answered. -/
theorem eq_ok_iff (h : Settles settings fits readable value attempt) {x : α} :
    attempt = .ok x ↔ fits ∧ readable ∧ x = value := by
  cases h with
  | answered hfits hreadable => simp [hfits, hreadable, eq_comm]
  | tooDeep hdeep => simp [hdeep]
  | unread e hunread => simp [hunread]

/-- Where every type string is read, an attempt fails by its depth alone. -/
theorem eq_tooDeep_iff (h : Settles settings fits readable value attempt)
    (hreadable : readable) :
    attempt = .error (.tooDeep settings.maxDepth) ↔ ¬fits := by
  cases h with
  | answered hfits _ => simp [hfits]
  | tooDeep hdeep => simp [hdeep]
  | unread e hunread => exact absurd hreadable hunread

theorem congr (h : Settles settings fits readable value attempt) (hfits : fits ↔ fits')
    (hreadable : readable ↔ readable') : Settles settings fits' readable' value attempt := by
  rwa [← propext hfits, ← propext hreadable]

theorem ok (value : α) : Settles settings True True value (.ok value) :=
  .answered trivial trivial

/-- The second of two attempts is made with the answer to the first. -/
theorem bind {result : β} (h : Settles settings fits readable value attempt)
    (next : α → Except Error β)
    (hnext : Settles settings fits' readable' result (next value)) :
    Settles settings (fits ∧ fits') (readable ∧ readable') result (attempt >>= next) := by
  cases h with
  | answered hfits hreadable =>
      exact hnext.congr (by simp [hfits]) (by simp [hreadable])
  | tooDeep hdeep => exact .tooDeep (fun hboth => hdeep hboth.1)
  | unread e hunread => exact .unread e (fun hboth => hunread hboth.1)

theorem map (f : α → β) (h : Settles settings fits readable value attempt) :
    Settles settings fits readable (f value) (attempt >>= fun a => pure (f a)) :=
  (h.bind _ (ok (f value))).congr (and_iff_left trivial) (and_iff_left trivial)

/-- An attempt ends as its image does, if different answers have different images. -/
theorem of_map {f : α → β} (hinj : ∀ a b, f a = f b → a = b)
    (h : Settles settings fits readable (f value) (attempt >>= fun a => pure (f a))) :
    Settles settings fits readable value attempt := by
  cases attempt with
  | error e =>
      cases h with
      | tooDeep hdeep => exact .tooDeep hdeep
      | unread e hunread => exact .unread e hunread
  | ok found =>
      obtain ⟨hfits, hreadable, hfound⟩ := h.eq_ok_iff.mp rfl
      obtain rfl := hinj _ _ hfound
      exact .answered hfits hreadable

/-- A list is answered if all of its items are, which are tried in their order. -/
theorem mapM {attempts : α → Except Error β} {values : α → β} {fits readable : α → Prop}
    {items : List α}
    (hitems : ∀ item ∈ items,
      Settles settings (fits item) (readable item) (values item) (attempts item)) :
    Settles settings (∀ item ∈ items, fits item) (∀ item ∈ items, readable item)
      (items.map values) (items.mapM attempts) := by
  induction items with
  | nil => exact (ok []).congr (by simp) (by simp)
  | cons item rest ih =>
      obtain ⟨hitem, hrest⟩ := List.forall_mem_cons.mp hitems
      rw [List.mapM_cons]
      have hall := hitem.bind (fun answer => do return answer :: (← rest.mapM attempts))
        ((ih hrest).map (values item :: ·))
      exact hall.congr List.forall_mem_cons.symm List.forall_mem_cons.symm

end Settles

theorem settles_checkDepth (settings : Settings) (depth : Int) :
    Settles settings (depth ≤ settings.maxDepth) True () (checkDepth settings depth) := by
  unfold checkDepth
  split
  next hdeep => exact .tooDeep (by omega)
  next hfits => exact .answered (by omega) trivial

/-- An attempt behind a check of the depth. -/
theorem Settles.guarded {settings : Settings} {α : Type} {fits readable : Prop} {value : α}
    {attempt : Except Error α} (depth : Int)
    (h : Settles settings fits readable value attempt) :
    Settles settings (depth ≤ settings.maxDepth ∧ fits) readable value
      (checkDepth settings depth >>= fun _ => attempt) :=
  ((settles_checkDepth settings depth).bind _ h).congr Iff.rfl (by simp)

/-- Whether a typed array is a dictionary is known where its type string can be read back. -/
theorem settles_isOfType (settings : Settings) {element : SigType} (items : List Variant)
    (hwf : element.WellFormed false) :
    Settles settings True (array element.text items).HasReadableType
      (array element.text items).isDictionaryLike
      ((array element.text items).isOfType (.text "a\x7b?*\x7d")) := by
  have hletters : (array element.text items).typeLetters = (SigType.array element).letters := by
    simp [typeLetters, SigType.letters]
  -- Both sides of the comparison are read from texts, but only that of the array can fail.
  cases hparse : Signature.parse maxDepthLimit (array element.text items).typeString with
  | ok type =>
      obtain ⟨hadmits, htext⟩ := Signature.parse_eq_ok_iff.mp hparse
      rw [typeString, String.toList_ofList, hletters] at htext
      obtain rfl := SigType.letters_inj (.array hwf) hadmits.wellFormed htext
      rw [isOfType_dictionary (.array hwf) (Signature.admits_zero_iff.mp hadmits).2 hletters]
      have hdictionary : SigType.dictionaryPattern.covers (.array element) =
          (array element.text items).isDictionaryLike := by
        rw [Bool.eq_iff_iff, SigType.dictionaryPattern_covers_iff hwf,
          isDictionaryLike_array_iff hwf]
      rw [hdictionary]
      exact .answered trivial ⟨_, hparse⟩
  | error e =>
      have hunread : ¬(array element.text items).HasReadableType := by
        rintro ⟨type, htype⟩
        rw [hparse] at htype
        cases htype
      rw [isOfType, Signature.typeMatches, Signature.typeOf, hparse]
      exact .unread e hunread

/-! ## Typed variants -/

/-- Unpacks one entry of a dictionary, which lies at the given depth. -/
def unpackPair (settings : Settings) (opening : Opening) (depth : Int)
    (pair : Variant × Variant) : Except Error (Native × Native) := do
  checkDepth settings depth
  if opening.opensChildren then
    let k ← pair.1.unpackAt settings opening (depth + 1)
    return (k, ← pair.2.unpackAt settings opening (depth + 1))
  else
    let k ← pair.1.unpackAt settings .deep (depth + 1)
    return (k, .variant pair.2)

variable {settings : Settings} {opening : Opening}

theorem unpackEntries_ofPair {depth : Int} {pairs : List (Variant × Variant)} :
    unpackEntries settings opening depth (pairs.map ofPair) =
      pairs.mapM (unpackPair settings opening depth) := by
  induction pairs with
  | nil => rfl
  | cons pair rest ih =>
      rw [List.map_cons, ofPair, unpackEntries, ih, List.mapM_cons, unpackPair, bind_assoc]
      split <;> simp only [bind_assoc, pure_bind]

/-- A variant that is not opened any further. -/
theorem settles_here {depth : Int} (x : Native) :
    Settles settings (depth + ((0 : Nat) : Int) ≤ settings.maxDepth) True x
      (checkDepth settings depth >>= fun _ => pure x) :=
  ((Settles.ok x).guarded depth).congr (by simp) Iff.rfl

/-- A variant that is opened to what its only child unpacks to. -/
theorem settles_through {depth : Int} {reach : Nat} {readable : Prop} {x : Native}
    {attempt : Except Error Native}
    (h : Settles settings (depth + 1 + (reach : Int) ≤ settings.maxDepth) readable x attempt) :
    Settles settings (depth + ((reach + 1 : Nat) : Int) ≤ settings.maxDepth) readable x
      (checkDepth settings depth >>= fun _ => attempt) :=
  (h.guarded depth).congr (by omega) Iff.rfl

/-- Opened children lie one level deeper. -/
theorem fits_below_iff {items : List Variant} {depth limit : Int} :
    (depth ≤ limit ∧ ∀ item ∈ items, depth + 1 + (item.reach opening : Int) ≤ limit) ↔
      depth + (reachBelow opening items : Int) ≤ limit := by
  constructor
  · rintro ⟨hhere, hitems⟩
    have hbelow : reachBelow opening items ≤ (limit - depth).toNat := by
      rw [reachBelow_le_iff]
      intro item hitem
      have hfits := hitems item hitem
      omega
    omega
  · intro hfits
    refine ⟨by omega, fun item hitem => ?_⟩
    have hreach : item.reach opening < reachBelow opening items := reach_lt_reachBelow hitem
    omega

/-- Children that are not opened reach nowhere. -/
theorem fits_items_iff {items : List Variant} {depth limit : Int} :
    (depth ≤ limit ∧ (opening.opensChildren = true →
      ∀ item ∈ items, depth + 1 + (item.reach opening : Int) ≤ limit)) ↔
      depth + ((if opening.opensChildren then reachBelow opening items else 0 : Nat) : Int) ≤
        limit := by
  split
  next hopens => simpa only [hopens, true_implies] using fits_below_iff
  next hopens => simp [hopens]

theorem fits_entries_iff {pairs : List (Variant × Variant)} {depth limit : Int} :
    (depth ≤ limit ∧
      if opening.opensChildren then
        ∀ item ∈ pairs.map ofPair, depth + 1 + (item.reach opening : Int) ≤ limit
      else pairs ≠ [] → depth + 2 ≤ limit) ↔
      depth + ((if opening.opensChildren then reachBelow opening (pairs.map ofPair)
        else if true && !(pairs.map ofPair).isEmpty then 2 else 0 : Nat) : Int) ≤ limit := by
  split
  next => exact fits_below_iff
  next =>
    cases pairs with
    | nil => simp
    | cons pair rest =>
        simp only [ne_eq, reduceCtorEq, not_false_eq_true, true_implies, List.map_cons,
          List.isEmpty_cons, Bool.not_false, Bool.and_self, if_true]
        omega

/-- The items of a container, which are opened or left as they are. -/
theorem settles_items {items : List Variant} {depth : Int}
    (hitems : ∀ item ∈ items, Settles settings
      (depth + 1 + (item.reach opening : Int) ≤ settings.maxDepth) (item.IsReadable opening)
      (item.unpacked opening) (item.unpackAt settings opening (depth + 1))) :
    Settles settings
      (opening.opensChildren = true →
        ∀ item ∈ items, depth + 1 + (item.reach opening : Int) ≤ settings.maxDepth)
      (opening.opensChildren = true → AreReadable opening items)
      (Native.list (unpackedAll opening items))
      (if opening.opensChildren then do
        return Native.list (← unpackAll settings opening (depth + 1) items)
      else return Native.list (items.map .variant)) := by
  rw [unpackedAll_eq_map, unpackAll_eq_mapM]
  by_cases hopens : opening.opensChildren = true
  · have hchild : unpackedChild opening = unpacked opening := by
      funext v
      rw [unpackedChild, if_pos hopens]
    rw [if_pos hopens, hchild]
    exact ((Settles.mapM hitems).map Native.list).congr (by simp [hopens])
      (by simp [hopens, areReadable_iff])
  · have hchild : unpackedChild opening = .variant := by
      funext v
      rw [unpackedChild, if_neg hopens]
    rw [if_neg hopens, hchild]
    exact .answered (fun h => absurd h hopens) (fun h => absurd h hopens)

theorem ofKeys_of_opened (hopens : opening.opensChildren = true) : opening.ofKeys = opening := by
  cases opening <;> first | rfl | cases hopens

/-- An opened entry of a dictionary is what it would be in a list, with another form. -/
theorem settles_opened_pair {depth : Int} {pair : Variant × Variant} {fits readable : Prop}
    (hopens : opening.opensChildren = true)
    (hentry : Settles settings fits readable ((ofPair pair).unpacked opening)
      ((ofPair pair).unpackAt settings opening depth)) :
    Settles settings fits readable (unpackedPair opening pair)
      (unpackPair settings opening depth pair) := by
  apply Settles.of_map (f := fun parts : Native × Native => Native.list [parts.1, parts.2])
  · rintro ⟨key, value⟩ ⟨otherKey, otherValue⟩ hsame
    simpa using hsame
  · rw [ofPair, unpackAt, unpacked, if_pos hopens, if_pos hopens] at hentry
    rw [unpackPair, unpackedPair, unpackedChild, ofKeys_of_opened hopens, if_pos hopens,
      if_pos hopens]
    simpa only [bind_assoc, pure_bind] using hentry

/-- A basic variant is unpacked in the same way by every opening. -/
theorem unpackAt_basic {v : Variant} {code : BasicCode} (htyped : HasType v (.basic code))
    (depth : Int) :
    v.unpackAt settings opening depth =
      checkDepth settings depth >>= fun _ => pure (v.unpacked opening) := by
  cases htyped <;> rfl

/-- An entry that is not opened has its key opened all the same, one level below itself. -/
theorem settles_kept_pair (settings : Settings) (depth : Int) {pair : Variant × Variant}
    {type : SigType} (hkept : opening.opensChildren = false) (hentry : HasType (ofPair pair) type) :
    Settles settings (depth + 1 ≤ settings.maxDepth) True (unpackedPair opening pair)
      (unpackPair settings opening depth pair) := by
  have hkeys : opening.ofKeys = .deep := by
    cases opening <;> first | rfl | cases hkept
  rw [unpackPair, unpackedPair, unpackedChild, hkeys, hkept]
  cases hentry with
  | entry hkey _ =>
      simp only [unpackAt_basic hkey, Bool.false_eq_true, if_false, bind_assoc, pure_bind]
      exact (((Settles.ok _).guarded (depth + 1)).guarded depth).congr (by simp; omega) Iff.rfl

/-- The entries of a dictionary. If there are any, the keys are opened in every case. -/
theorem settles_entries {pairs : List (Variant × Variant)} {depth : Int} {type : SigType}
    (htyped : ∀ pair ∈ pairs, HasType (ofPair pair) type)
    (hentries : ∀ item ∈ pairs.map ofPair, Settles settings
      (depth + 1 + (item.reach opening : Int) ≤ settings.maxDepth) (item.IsReadable opening)
      (item.unpacked opening) (item.unpackAt settings opening (depth + 1))) :
    Settles settings
      (if opening.opensChildren then
        ∀ item ∈ pairs.map ofPair, depth + 1 + (item.reach opening : Int) ≤ settings.maxDepth
      else pairs ≠ [] → depth + 2 ≤ settings.maxDepth)
      (opening.opensChildren = true → AreReadable opening (pairs.map ofPair))
      (unpackedEntries opening (pairs.map ofPair))
      (unpackEntries settings opening (depth + 1) (pairs.map ofPair)) := by
  rw [unpackEntries_ofPair, unpackedEntries_ofPair]
  rw [List.forall_mem_map] at hentries
  by_cases hopens : opening.opensChildren = true
  · have hpairs := Settles.mapM (fun pair hpair =>
      settles_opened_pair hopens (hentries pair hpair))
    exact hpairs.congr (by rw [if_pos hopens, List.forall_mem_map])
      (by simp only [hopens, true_implies, areReadable_iff, List.forall_mem_map])
  · have hkept : opening.opensChildren = false := by simpa using hopens
    have hpairs := Settles.mapM (fun pair hpair =>
      settles_kept_pair settings (depth + 1) hkept (htyped pair hpair))
    refine hpairs.congr ?_ (by simp [hopens])
    rw [if_neg hopens]
    -- Every key asks for the same depth, so the first entry stands for all of them.
    constructor
    · intro hfits hne
      have hfirst := hfits _ (List.head_mem hne)
      omega
    · intro hfits pair hpair
      have hfirst := hfits (List.ne_nil_of_mem hpair)
      omega

/-- An array is unpacked as a dictionary where it is one, once this is known. -/
theorem settles_array {element : SigType} {items : List Variant} {depth : Int}
    {fits readable : Prop} {x : Native} {ofEntries ofItems : Except Error Native}
    (hwf : element.WellFormed false)
    (hbody : Settles settings fits readable x
      (if (array element.text items).isDictionaryLike then ofEntries else ofItems)) :
    Settles settings (depth ≤ settings.maxDepth ∧ fits)
      ((array element.text items).HasReadableType ∧ readable) x
      (do
        checkDepth settings depth
        if ← (array element.text items).isOfType (.text "a\x7b?*\x7d") then ofEntries
        else ofItems) := by
  have hopened := (settles_isOfType settings items hwf).bind
    (fun dictionary => if dictionary then ofEntries else ofItems) hbody
  exact (hopened.congr (by simp) Iff.rfl).guarded depth

/-- Unpacking a typed variant comes to its value exactly if it stays within the limit and can read
back the type strings of the arrays that it meets. It is refused for its depth only if it does not
stay within the limit. -/
theorem settles_unpackAt {v : Variant} {type : SigType} (htyped : HasType v type)
    (settings : Settings) (opening : Opening) (depth : Int) :
    Settles settings (depth + (v.reach opening : Int) ≤ settings.maxDepth)
      (v.IsReadable opening) (v.unpacked opening) (v.unpackAt settings opening depth) := by
  induction htyped generalizing depth opening with
  | boolean | integer | double | text | nothing | bytes => exact settles_here _
  | box _ ih | just _ ih =>
      rw [unpackAt, reach, IsReadable, unpacked]
      split
      next hopens =>
        have hcontent := settles_through (ih opening (depth + 1))
        exact hcontent.congr Iff.rfl (by simp [hopens])
      next hopens => exact (settles_here _).congr Iff.rfl (by simp [hopens])
  | tuple parts _ ih =>
      rw [unpackAt, reach, IsReadable, unpacked]
      refine ((settles_items ?_).guarded depth).congr fits_items_iff Iff.rfl
      exact List.forall_mem_map.mpr (fun part hpart => ih part hpart opening (depth + 1))
  | @array element items helement _ hitems ih =>
      rw [unpackAt, reach, IsReadable, unpacked]
      have hbelow := fun item hitem => ih item hitem opening (depth + 1)
      by_cases hdictionary : (array element.text items).isDictionaryLike = true
      · obtain ⟨pairs, rfl, hpairs⟩ := exists_pairs helement hitems hdictionary
        have hmap := (settles_entries hpairs hbelow).map Native.mapOf
        rw [if_pos hdictionary]
        apply (settles_array helement (by rwa [if_pos hdictionary])).congr ?_ Iff.rfl
        rw [hdictionary]
        exact fits_entries_iff
      · have hlist := settles_items hbelow
        rw [if_neg hdictionary]
        apply (settles_array helement (by rwa [if_neg hdictionary])).congr ?_ Iff.rfl
        rw [Bool.eq_false_iff.mpr hdictionary]
        exact fits_items_iff
  | @entry key value code type hkey _ ihkey ihvalue =>
      rw [unpackAt, reach, IsReadable, unpacked]
      split
      next hopens =>
        have hboth := (ihkey opening (depth + 1)).bind
          (fun k => do return Native.list [k, ← value.unpackAt settings opening (depth + 1)])
          ((ihvalue opening (depth + 1)).map (Native.list [key.unpacked opening, ·]))
        exact (hboth.guarded depth).congr (by omega) (by simp [hopens])
      next hopens => exact (settles_here _).congr Iff.rfl (by simp [hopens])

end Variant

end TypedVariant
