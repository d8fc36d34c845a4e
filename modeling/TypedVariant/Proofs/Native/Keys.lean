import TypedVariant.Proofs.Native.Sameness

/-!
# Lookups in maps of numbers and texts

Numbers and texts are the same as keys exactly if they stand for one number or one
text, whatever their kinds. Storing pairs in a map one after the other leaves, under
each such key, the value that was stored last.
-/

namespace TypedVariant

namespace Native

/-- What a number or a text stands for as a key. A finite number is told by how many of the least
positive double it makes. -/
inductive KeyValue
  | finite (units : Int)
  | infinity (negative : Bool)
  | nan (mark : Nat)
  | text (value : String)
  deriving DecidableEq, Repr

end Native

open Native (KeyValue)

namespace Double

def keyValue : Double → KeyValue
  | nan mark => .nan mark
  | infinity negative => .infinity negative
  | value => .finite (value.units?.getD 0)

theorem keyValue_eq_finite_iff {value : Double} {units : Int} :
    value.keyValue = .finite units ↔ value.units? = some units := by
  cases value <;> simp [keyValue, units?]

theorem same_iff {a b : Double} : a.same b = true ↔ a.keyValue = b.keyValue := by
  cases a <;> cases b <;> simp [same, isSameNaN, equal, keyValue, units?]

end Double

namespace Native

def Number.keyValue : Number → KeyValue
  | whole value => .finite (value * Double.unitsPerOne)
  | real value => value.keyValue

/-- What a value stands for as a key, if it is a number or a text. -/
def keyValue? : Native → Option KeyValue
  | text value => some (.text value)
  | x => x.number?.map Number.keyValue

variable {x y key value : Native} {entries pairs : List (Native × Native)}

theorem exists_double_of_number? {value : Double} (hx : x.number? = some (.real value)) :
    x = .double value := by
  cases x <;> simp_all [number?]

theorem isSameNaN_of_whole {z : Int} (hwhole : x.number? = some (.whole z) ∨
    y.number? = some (.whole z)) : x.isSameNaN y = false := by
  cases x <;> cases y <;> simp_all [number?, isSameNaN]

/-- Numbers are the same as keys exactly if they stand for the same. -/
theorem same_iff_of_number? {n m : Number} (hx : x.number? = some n) (hy : y.number? = some m) :
    x.same y = true ↔ n.keyValue = m.keyValue := by
  rw [same, Bool.or_eq_true, equal_of_number? hx hy]
  cases n with
  | whole a =>
      rw [isSameNaN_of_whole (.inl hx)]
      cases m with
      | whole b =>
          rw [Number.keyValue, Number.keyValue, KeyValue.finite.injEq,
            Int.mul_eq_mul_right_iff Double.unitsPerOne_ne_zero]
          simp [Number.equal]
      | real b =>
          rw [Number.keyValue, Number.keyValue, eq_comm (b := b.keyValue),
            Double.keyValue_eq_finite_iff, ← Double.whole?_eq_some_iff]
          simp [Number.equal]
  | real a =>
      cases m with
      | whole b =>
          rw [isSameNaN_of_whole (.inr hy), Number.keyValue, Number.keyValue,
            Double.keyValue_eq_finite_iff, ← Double.whole?_eq_some_iff]
          simp [Number.equal]
      | real b =>
          obtain rfl := exists_double_of_number? hx
          obtain rfl := exists_double_of_number? hy
          rw [Number.keyValue, Number.keyValue, ← Double.same_iff, Double.same, Bool.or_eq_true]
          rfl

theorem Number.keyValue_ne_text (n : Number) (value : String) : n.keyValue ≠ .text value := by
  cases n with
  | whole z => exact nofun
  | real found => cases found <;> simp [Number.keyValue, Double.keyValue]

theorem keyValue?_of_number? {n : Number} (hx : x.number? = some n) :
    x.keyValue? = some n.keyValue := by
  cases x <;> simp_all [keyValue?, number?]

theorem keyValue?_ne_of_number? {n : Number} (hx : x.number? = none) :
    x.keyValue? ≠ some n.keyValue := by
  cases x with
  | text value => simpa [keyValue?, eq_comm] using n.keyValue_ne_text value
  | _ => simp [keyValue?, hx]

theorem keyValue?_eq_text_iff {value : String} :
    x.keyValue? = some (.text value) ↔ x = .text value := by
  cases x with
  | bool _ | int _ | double _ => simp [keyValue?, number?, Number.keyValue_ne_text]
  | _ => simp [keyValue?, number?]

theorem same_eq_false_of_number? {n : Number} (hx : x.number? = some n) (hy : y.number? = none) :
    x.same y = false := by
  have hmark : x.isSameNaN y = false := by cases x <;> cases y <;> simp_all [number?, isSameNaN]
  cases x with
  | bool _ | int _ | double _ => simp [same, hmark, equal, hy]
  | _ => simp [number?] at hx

theorem same_text_iff {value : String} : (text value).same y = true ↔ y = .text value := by
  cases y with
  | text other => simp [same, isSameNaN, equal, eq_comm (a := other)]
  | _ => simp [same, isSameNaN, equal]

theorem same_text_eq_false {value other : String} (hne : value ≠ other) :
    (text value).same (text other) = false := by
  rw [Bool.eq_false_iff, Ne, same_text_iff]
  exact fun hother => hne (text.inj hother).symm

/-- A number or a text is the same as what stands for the same, and as nothing else. -/
theorem same_iff {c : KeyValue} (hx : x.keyValue? = some c) :
    x.same y = true ↔ y.keyValue? = some c := by
  cases hn : x.number? with
  | some n =>
      obtain rfl : n.keyValue = c := Option.some.inj ((keyValue?_of_number? hn).symm.trans hx)
      cases hm : y.number? with
      | some m => rw [same_iff_of_number? hn hm, keyValue?_of_number? hm, Option.some_inj, eq_comm]
      | none => simp [same_eq_false_of_number? hn hm, keyValue?_ne_of_number? hm]
  | none =>
      cases x with
      | text value =>
          obtain rfl := Option.some.inj hx
          rw [same_text_iff, keyValue?_eq_text_iff]
      | bool _ | int _ | double _ => cases hn
      | _ => cases hx

/-! ## Maps -/

/-- Keys that are the same are found by the same lookups. -/
theorem same_congr {c : KeyValue} (hx : x.keyValue? = some c) (hy : y.keyValue? = some c)
    (key : Native) : x.same key = y.same key := by
  rw [Bool.eq_iff_iff, same_iff hx, same_iff hy]

/-- All keys are numbers or texts. -/
def HasPlainKeys (entries : List (Native × Native)) : Prop :=
  ∀ entry ∈ entries, entry.1.keyValue?.isSome = true

/-- What holds of all keys, and what holds of all values, still holds after an entry with such a key
and such a value is stored. -/
theorem forall_mem_insert {P Q : Native → Prop}
    (hentries : ∀ entry ∈ entries, P entry.1 ∧ Q entry.2) (hkey : P key) (hvalue : Q value) :
    ∀ entry ∈ insert key value entries, P entry.1 ∧ Q entry.2 := by
  induction entries with
  | nil => exact List.forall_mem_singleton.mpr ⟨hkey, hvalue⟩
  | cons entry rest ih =>
      obtain ⟨hentry, hrest⟩ := List.forall_mem_cons.mp hentries
      rw [insert]
      split
      next => exact List.forall_mem_cons.mpr ⟨⟨hentry.1, hvalue⟩, hrest⟩
      next => exact List.forall_mem_cons.mpr ⟨hentry, ih hrest⟩

/-- A map has no keys and no values but those of the pairs that it is made of. -/
theorem exists_mapOf {P Q : Native → Prop} (hpairs : ∀ pair ∈ pairs, P pair.1 ∧ Q pair.2) :
    ∃ entries, mapOf pairs = .map entries ∧ ∀ entry ∈ entries, P entry.1 ∧ Q entry.2 := by
  refine ⟨_, rfl, ?_⟩
  -- The entries that are there at the start are none, but there are some at each later pair.
  suffices hall : ∀ entries : List (Native × Native), (∀ entry ∈ entries, P entry.1 ∧ Q entry.2) →
      ∀ entry ∈ pairs.foldl (fun entries pair => insert pair.1 pair.2 entries) entries,
        P entry.1 ∧ Q entry.2 from hall [] (List.forall_mem_nil _)
  induction pairs with
  | nil => exact fun entries hentries => hentries
  | cons pair rest ih =>
      obtain ⟨⟨hkey, hvalue⟩, hrest⟩ := List.forall_mem_cons.mp hpairs
      exact fun entries hentries => ih hrest _ (forall_mem_insert hentries hkey hvalue)

theorem HasPlainKeys.insert {stored : Native} (hentries : HasPlainKeys entries)
    (hstored : stored.keyValue?.isSome = true) :
    HasPlainKeys (insert stored value entries) :=
  fun entry hentry => (forall_mem_insert (P := fun key => key.keyValue?.isSome = true)
    (Q := fun _ => True) (fun entry hentry => ⟨hentries entry hentry, trivial⟩) hstored trivial
    entry hentry).1

theorem lookup?_cons (entry : Native × Native) (rest : List (Native × Native)) :
    lookup? key (entry :: rest) =
      if entry.1.same key then some entry.2 else lookup? key rest := by
  rw [lookup?, List.find?_cons]
  cases entry.1.same key <;> rfl

theorem lookup?_append (others : List (Native × Native)) :
    lookup? key (entries ++ others) = (lookup? key entries).or (lookup? key others) := by
  rw [lookup?, List.find?_append, Option.map_or, lookup?, lookup?]

/-- A value that is stored is found under its key, and nothing changes for other keys. -/
theorem lookup?_insert {stored : Native} (hentries : HasPlainKeys entries)
    (hstored : stored.keyValue?.isSome = true) :
    lookup? key (insert stored value entries) =
      if stored.same key then some value else lookup? key entries := by
  obtain ⟨c, hc⟩ := Option.isSome_iff_exists.mp hstored
  induction entries with
  | nil => rw [Native.insert, lookup?_cons]
  | cons entry rest ih =>
      obtain ⟨hentry, hrest⟩ := List.forall_mem_cons.mp hentries
      obtain ⟨d, hd⟩ := Option.isSome_iff_exists.mp hentry
      rw [Native.insert, lookup?_cons]
      split
      next hsame =>
        rw [lookup?_cons, same_congr ((same_iff hd).mp hsame) hd]
        split <;> rfl
      next hother =>
        rw [lookup?_cons, ih hrest]
        -- A key that both were the same as would make them the same.
        have hnotBoth : ¬(entry.1.same key = true ∧ stored.same key = true) := by
          rintro ⟨hfirst, hsecond⟩
          have hkey := (same_iff hd).mp hfirst
          rw [(same_iff hc).mp hsecond] at hkey
          exact hother ((same_iff hd).mpr (hc.trans hkey))
        split <;> split <;> simp_all

/-- The value that was stored last under a key is the one that is found. -/
theorem lookup?_foldl_insert (hentries : HasPlainKeys entries) (hpairs : HasPlainKeys pairs) :
    lookup? key (pairs.foldl (fun entries pair => insert pair.1 pair.2 entries) entries) =
      (lookup? key pairs.reverse).or (lookup? key entries) := by
  induction pairs generalizing entries with
  | nil => rfl
  | cons pair rest ih =>
      obtain ⟨hpair, hrest⟩ := List.forall_mem_cons.mp hpairs
      rw [List.foldl_cons, ih (hentries.insert hpair) hrest, lookup?_insert hentries hpair,
        List.reverse_cons, lookup?_append, Option.or_assoc, lookup?_cons]
      split <;> rfl

/-- A map that is made of pairs has, under each key, the value of the last pair with this key. -/
theorem lookup?_mapOf (hpairs : HasPlainKeys pairs) (hmap : mapOf pairs = .map entries) :
    lookup? key entries = lookup? key pairs.reverse := by
  obtain rfl := Native.map.inj hmap
  have hempty : HasPlainKeys [] := List.forall_mem_nil _
  rw [lookup?_foldl_insert hempty hpairs]
  exact Option.or_none

end Native

end TypedVariant
