import TypedVariant.Pack.Elements

/-!
# What is handed down to parts

Packing a container goes on with the parts of its value: the items of a sequence, or
the entries of a map as pairs. Some of them are made on the way, which are the
integers of a range, the keys of a view and the pairs themselves. A property that
collections hand down to what they store, and that holds of what is made, holds of
all parts.
-/

namespace TypedVariant.Native

/-- A property that values hand down to the parts that packing goes on with. -/
structure HandedDown (P : Native → Prop) : Prop where
  list {items : List Native} : P (.list items) → ∀ item ∈ items, P item
  tuple {items : List Native} : P (.tuple items) → ∀ item ∈ items, P item
  set {items : List Native} : P (.set items) → ∀ item ∈ items, P item
  stream {items : List Native} {mark : Nat} : P (.stream items mark) → ∀ item ∈ items, P item
  map {entries : List (Native × Native)} :
    P (.map entries) → ∀ entry ∈ entries, P entry.1 ∧ P entry.2
  /-- The items of a range are made on the way. -/
  int (value : Int) : P (.int value)
  /-- The keys of a view are made on the way. -/
  text (value : String) : P (.text value)
  /-- The entries of a map are packed from pairs. -/
  pair {key value : Native} : P key → P value → P (.tuple [key, value])

namespace HandedDown

variable {P : Native → Prop} {x : Native} {items : List Native}

theorem sequence? (hdown : HandedDown P) (hx : P x) (hitems : x.sequence? = some items) :
    ∀ item ∈ items, P item := by
  cases x with
  | list xs =>
      obtain rfl := Option.some.inj hitems
      exact hdown.list hx
  | tuple xs =>
      obtain rfl := Option.some.inj hitems
      exact hdown.tuple hx
  | set xs =>
      obtain rfl := Option.some.inj hitems
      exact hdown.set hx
  | stream xs mark =>
      obtain rfl := Option.some.inj hitems
      exact hdown.stream hx
  | range start stop step =>
      obtain rfl := eq_rangeItems_of_sequence? hitems
      intro item hitem
      obtain ⟨value, rfl⟩ := exists_int_of_mem_rangeItems hitem
      exact hdown.int value
  | dictionary v mark =>
      obtain rfl := Option.some.inj hitems
      intro item hitem
      obtain ⟨value, rfl⟩ := exists_text_of_mem_dictionaryKeys hitem
      exact hdown.text value
  | _ => simp [Native.sequence?] at hitems

theorem elementsOf {element : SigType} (hdown : HandedDown P) (hx : P x)
    (hitems : Pack.elementsOf element x = .ok items) : ∀ item ∈ items, P item := by
  unfold Pack.elementsOf at hitems
  split at hitems
  next =>
    split at hitems
    next entries =>
      obtain rfl := Except.ok.inj hitems
      intro item hitem
      obtain ⟨entry, hentry, rfl⟩ := List.mem_map.mp hitem
      obtain ⟨hkey, hvalue⟩ := hdown.map hx entry hentry
      exact hdown.pair hkey hvalue
    next => simp at hitems
  next =>
    split at hitems
    next found hsequence =>
      obtain rfl := Except.ok.inj hitems
      exact hdown.sequence? hx hsequence
    next => simp at hitems

end HandedDown

end TypedVariant.Native
