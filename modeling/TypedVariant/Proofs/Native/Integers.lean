import TypedVariant.Error
import TypedVariant.Proofs.Variant.Printing

/-!
# Integers in values

Showing a value writes the integers in it, and writing it as JSON does as well. A value
whose variants are typed can be shown unless one of these integers has too many digits
for a numeral. Then this is what keeps it from being shown.
-/

namespace TypedVariant.Native

mutual

/-- The integers that are written where a value is shown. Those in variants are not counted. -/
def integers : Native → List Int
  | int value => [value]
  | range start stop step => [start, stop, step]
  | list items | tuple items | set items => integersAll items
  | map entries => integersOfEntries entries
  | null | bool _ | double _ | text _ | blob _ _ | stream _ _ | object _ | sigType _ | variant _
  | dictionary _ _ | foreign _ => []
termination_by structural x => x

def integersAll : List Native → List Int
  | [] => []
  | x :: rest => x.integers ++ integersAll rest
termination_by structural items => items

def integersOfEntries : List (Native × Native) → List Int
  | [] => []
  | (key, value) :: rest => key.integers ++ value.integers ++ integersOfEntries rest
termination_by structural entries => entries

end

theorem integersAll_eq (items : List Native) : integersAll items = items.flatMap integers := by
  induction items with
  | nil => rfl
  | cons x rest ih => rw [integersAll, ih, List.flatMap_cons]

theorem integersOfEntries_eq (entries : List (Native × Native)) :
    integersOfEntries entries =
      entries.flatMap (fun entry => entry.1.integers ++ entry.2.integers) := by
  induction entries with
  | nil => rfl
  | cons entry rest ih => rw [integersOfEntries, ih, List.flatMap_cons]

/-- No integer in the value has too many digits. -/
def IsShort (x : Native) : Prop :=
  ∀ z ∈ x.integers, Numeral.isOverlong z = false

instance (x : Native) : Decidable x.IsShort :=
  inferInstanceAs (Decidable (∀ z ∈ x.integers, _))

variable {value start stop step : Int} {items : List Native} {entries : List (Native × Native)}

theorem isShort_of_integers_eq_nil {x : Native} (hnone : x.integers = []) : x.IsShort := by
  simp [IsShort, hnone]

theorem isShort_int_iff : (int value).IsShort ↔ Numeral.isOverlong value = false := by
  simp [IsShort, integers]

theorem isShort_range_iff : (range start stop step).IsShort ↔ Numeral.isOverlong start = false ∧
    Numeral.isOverlong stop = false ∧ Numeral.isOverlong step = false := by
  simp [IsShort, integers]

theorem isShort_list_iff : (list items).IsShort ↔ ∀ item ∈ items, item.IsShort := by
  simp only [IsShort, integers, integersAll_eq, List.mem_flatMap]
  exact ⟨fun hall item hitem z hz => hall z ⟨item, hitem, hz⟩,
    fun hall z ⟨item, hitem, hz⟩ => hall item hitem z hz⟩

theorem isShort_map_iff :
    (map entries).IsShort ↔ ∀ entry ∈ entries, entry.1.IsShort ∧ entry.2.IsShort := by
  simp only [IsShort, integers, integersOfEntries_eq, List.mem_flatMap, List.mem_append]
  exact ⟨fun hall entry hentry => ⟨fun z hz => hall z ⟨entry, hentry, .inl hz⟩,
      fun z hz => hall z ⟨entry, hentry, .inr hz⟩⟩,
    fun hall z ⟨entry, hentry, hz⟩ => hz.elim ((hall entry hentry).1 z) ((hall entry hentry).2 z)⟩

/-! ## Values that can be shown -/

/-- The first of two faults for one cause is there unless both are missing. -/
theorem or_overlongInteger {p q : Prop} [Decidable p] [Decidable q] :
    ((if p then none else some PrintFault.overlongInteger).or
      (if q then none else some .overlongInteger)) =
        if p ∧ q then none else some .overlongInteger := by
  by_cases hp : p <;> simp [hp]

theorem ofInteger?_eq (z : Int) : PrintFault.ofInteger? z =
    if Numeral.isOverlong z = false then none else some .overlongInteger := by
  unfold PrintFault.ofInteger?
  cases Numeral.isOverlong z <;> rfl

mutual

/-- A value in which all variants are typed can be shown unless an integer has too many digits. -/
theorem printFault?_eq : (x : Native) → (hx : x.IsTyped) →
    x.printFault? = if x.IsShort then none else some .overlongInteger
  | variant _, hx => by
      obtain ⟨type, htyped⟩ := isTyped_variant_iff.mp hx
      exact Variant.printFault?_eq_none htyped
  | int value, _ => by
      simp only [printFault?, ofInteger?_eq, isShort_int_iff]
  | range start stop step, _ => by
      -- A step of one is not written, and has one digit.
      have hstep : (if step = 1 then none else PrintFault.ofInteger? step) =
          if Numeral.isOverlong step = false then none else some .overlongInteger := by
        split
        next hone => rw [hone]; rfl
        next => exact ofInteger?_eq step
      rw [printFault?, hstep, ofInteger?_eq, ofInteger?_eq, or_overlongInteger, or_overlongInteger]
      simp only [isShort_range_iff, and_assoc]
  | list items, hx | tuple items, hx | set items, hx =>
      firstPrintFault?_eq items (isTyped_of_variantsAll hx)
  | map entries, hx => entryPrintFault?_eq entries (handedDown_isTyped.map hx)
  | null, _ | bool _, _ | double _, _ | text _, _ | blob _ _, _ | stream _ _, _
  | object _, _ | sigType _, _ | dictionary _ _, _ | foreign _, _ => rfl
termination_by structural x => x

theorem firstPrintFault?_eq : (items : List Native) → (hitems : ∀ item ∈ items, item.IsTyped) →
    firstPrintFault? items = if (list items).IsShort then none else some .overlongInteger
  | [], _ => rfl
  | x :: rest, hitems => by
      obtain ⟨hx, hrest⟩ := List.forall_mem_cons.mp hitems
      rw [firstPrintFault?, printFault?_eq x hx, firstPrintFault?_eq rest hrest,
        or_overlongInteger]
      simp only [isShort_list_iff, List.forall_mem_cons]
termination_by structural items => items

theorem entryPrintFault?_eq : (entries : List (Native × Native)) →
    (hentries : ∀ entry ∈ entries, entry.1.IsTyped ∧ entry.2.IsTyped) →
    entryPrintFault? entries = if (map entries).IsShort then none else some .overlongInteger
  | [], _ => rfl
  | (key, value) :: rest, hentries => by
      obtain ⟨⟨hkey, hvalue⟩, hrest⟩ := List.forall_mem_cons.mp hentries
      rw [entryPrintFault?, printFault?_eq key hkey, printFault?_eq value hvalue,
        entryPrintFault?_eq rest hrest, or_overlongInteger, or_overlongInteger]
      simp only [isShort_map_iff, List.forall_mem_cons]
termination_by structural entries => entries

end

theorem displayShown_of_isTyped {x : Native} (hx : x.IsTyped) :
    x.displayShown = if x.IsShort then .ok x.shown else .error .overlongInteger := by
  rw [displayShown, printFault?_eq x hx]
  by_cases hshort : x.IsShort
  · rw [if_pos hshort, if_pos hshort]
  · rw [if_neg hshort, if_neg hshort]
    rfl

end TypedVariant.Native
