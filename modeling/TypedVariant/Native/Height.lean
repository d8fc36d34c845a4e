import TypedVariant.Native.Basic

/-! # Heights of native values

The height of a value counts the collections nested in it. Whatever packing takes
out of a value is lower than the value, and this is why packing ends.
-/

namespace TypedVariant

namespace Native

mutual

/-- How many collections are nested in a value; the entries of a map count as pairs. -/
def height : Native → Nat
  | list items | tuple items | set items | stream items _ => heightAll items + 1
  | map entries => heightEntries entries + 2
  | range _ _ _ | dictionary _ _ => 1
  | null | bool _ | int _ | double _ | text _ | blob _ _ | object _ | sigType _ | variant _
  | foreign _ => 0
termination_by structural x => x

def heightAll : List Native → Nat
  | [] => 0
  | x :: rest => max x.height (heightAll rest)
termination_by structural xs => xs

/-- The greatest height of a key or value. -/
def heightEntries : List (Native × Native) → Nat
  | [] => 0
  | (key, value) :: rest => max (max key.height value.height) (heightEntries rest)
termination_by structural entries => entries

end

def entryPairs (entries : List (Native × Native)) : List Native :=
  entries.map (fun entry => tuple [entry.1, entry.2])

theorem heightAll_eq_zero {xs : List Native} (h : ∀ x ∈ xs, x.height = 0) : heightAll xs = 0 := by
  induction xs with
  | nil => simp [heightAll]
  | cons x rest ih =>
      have hx := h x List.mem_cons_self
      have hrest := ih (fun y hy => h y (List.mem_cons_of_mem _ hy))
      simp [heightAll, hx, hrest]

theorem exists_int_of_mem_rangeItems {start stop step : Int} {x : Native}
    (hx : x ∈ rangeItems start stop step) : ∃ value, x = int value := by
  obtain ⟨n, -, rfl⟩ := List.mem_map.mp hx
  exact ⟨_, rfl⟩

theorem exists_text_of_mem_dictionaryKeys {v : Variant} {x : Native}
    (hx : x ∈ dictionaryKeys v) : ∃ value, x = text value := by
  obtain ⟨child, -, hkey⟩ := List.mem_filterMap.mp hx
  split at hkey
  next key _ => exact ⟨key, (Option.some.inj hkey).symm⟩
  next => simp at hkey

/-- A range that stands for a sequence stands for its items. -/
theorem eq_rangeItems_of_sequence? {start stop step : Int} {items : List Native}
    (h : (range start stop step).sequence? = some items) : items = rangeItems start stop step := by
  rw [sequence?] at h
  split at h
  · exact (Option.some.inj h).symm
  · simp at h

/-- The items of a sequence are lower than the sequence. -/
theorem heightAll_lt_of_sequence? {x : Native} {items : List Native}
    (h : x.sequence? = some items) : heightAll items < x.height := by
  cases x with
  | list xs | tuple xs | set xs | stream xs mark =>
      simp only [sequence?, Option.some.injEq] at h
      subst h
      simp [height]
  | range start stop step =>
      obtain rfl := eq_rangeItems_of_sequence? h
      rw [heightAll_eq_zero]
      · simp [height]
      · intro y hy
        obtain ⟨value, rfl⟩ := exists_int_of_mem_rangeItems hy
        simp [height]
  | dictionary v mark =>
      simp only [sequence?, Option.some.injEq] at h
      subst h
      rw [heightAll_eq_zero]
      · simp [height]
      · intro y hy
        obtain ⟨value, rfl⟩ := exists_text_of_mem_dictionaryKeys hy
        simp [height]
  | null | bool _ | int _ | double _ | text _ | blob _ _ | map _ | object _ | sigType _
  | variant _ | foreign _ => simp [sequence?] at h

theorem heightAll_entryPairs_lt (entries : List (Native × Native)) :
    heightAll (entryPairs entries) < (map entries).height := by
  induction entries with
  | nil => simp [entryPairs, heightAll, height]
  | cons entry rest ih =>
      obtain ⟨key, value⟩ := entry
      simp only [entryPairs, List.map_cons, heightAll, height, heightEntries] at ih ⊢
      omega

/-- The order in which packing descends: height first, then the elements of a list before each of
them, then the way to a box, and the length of what is left. -/
abbrev packingOrder : Nat × Nat × Nat × Nat → Nat × Nat × Nat × Nat → Prop :=
  Prod.Lex (· < ·) (Prod.Lex (· < ·) (Prod.Lex (· < ·) (· < ·)))

theorem lex_head (x : Native) (rest : List Native) (n m : Nat) :
    packingOrder (x.height, 0, n, m) (heightAll (x :: rest), 1, 0, (x :: rest).length) := by
  rcases Nat.lt_or_ge x.height (heightAll (x :: rest)) with h | h
  · exact Prod.Lex.left _ _ h
  · have : x.height = heightAll (x :: rest) := by
      simp only [heightAll] at h ⊢
      omega
    rw [this]
    exact Prod.Lex.right _ (Prod.Lex.left _ _ Nat.one_pos)

theorem lex_tail (x : Native) (rest : List Native) :
    packingOrder (heightAll rest, 1, 0, rest.length)
      (heightAll (x :: rest), 1, 0, (x :: rest).length) := by
  rcases Nat.lt_or_ge (heightAll rest) (heightAll (x :: rest)) with h | h
  · exact Prod.Lex.left _ _ h
  · have : heightAll rest = heightAll (x :: rest) := by
      simp only [heightAll] at h ⊢
      omega
    rw [this]
    exact Prod.Lex.right _ (Prod.Lex.right _ (Prod.Lex.right _ (by simp)))

end Native

end TypedVariant
