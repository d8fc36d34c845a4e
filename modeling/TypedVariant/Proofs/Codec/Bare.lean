import TypedVariant.Proofs.Native.Parts
import TypedVariant.Proofs.Native.Sameness

/-!
# Bare values

A bare value holds no variants, so that all types of what is packed from it are
those of the signature or implied by the kinds of values. The keys of its maps
can be told apart. At most types they can be told apart when they are packed as
well: all that a truth value keeps of a key is whether it counts as true.
-/

namespace TypedVariant

namespace SigType

mutual

/-- No entries within a type have truth values for keys. -/
def HasNoBooleanKeys : SigType → Prop
  | maybe element | array element => element.HasNoBooleanKeys
  | tuple members => HaveNoBooleanKeys members
  | dictEntry key value =>
      key ≠ .basic .boolean ∧ key.HasNoBooleanKeys ∧ value.HasNoBooleanKeys
  | basic _ | variant | wildcard _ | unlisted _ | unlistedWildcard _ => True
termination_by structural type => type

def HaveNoBooleanKeys : List SigType → Prop
  | [] => True
  | type :: rest => type.HasNoBooleanKeys ∧ HaveNoBooleanKeys rest
termination_by structural types => types

end

theorem haveNoBooleanKeys_iff {types : List SigType} :
    HaveNoBooleanKeys types ↔ ∀ type ∈ types, type.HasNoBooleanKeys := by
  induction types with
  | nil => simp [HaveNoBooleanKeys]
  | cons type rest ih => simp [HaveNoBooleanKeys, ih]

end SigType

namespace Native

mutual

/-- No variant is in a value, and no key of its maps is the double that is no number. As in every
map that was built, no two keys of one map are the same. -/
def IsBare : Native → Prop
  | variant _ => False
  | list items | tuple items | set items | stream items _ => AreBare items
  | map entries =>
      entries.Pairwise (fun earlier later => earlier.1.same later.1 = false) ∧
        AreBareEntries entries
  | null | bool _ | int _ | double _ | text _ | blob _ _ | range _ _ _ | object _ | sigType _
  | dictionary _ _ | foreign _ => True
termination_by structural x => x

def AreBare : List Native → Prop
  | [] => True
  | x :: rest => x.IsBare ∧ AreBare rest
termination_by structural items => items

def AreBareEntries : List (Native × Native) → Prop
  | [] => True
  | (key, value) :: rest =>
      (key.isNaN = false ∧ key.IsBare ∧ value.IsBare) ∧ AreBareEntries rest
termination_by structural entries => entries

end

theorem areBare_iff {items : List Native} : AreBare items ↔ ∀ item ∈ items, item.IsBare := by
  induction items with
  | nil => simp [AreBare]
  | cons item rest ih => simp [AreBare, ih]

theorem areBareEntries_iff {entries : List (Native × Native)} :
    AreBareEntries entries ↔
      ∀ entry ∈ entries, entry.1.isNaN = false ∧ entry.1.IsBare ∧ entry.2.IsBare := by
  induction entries with
  | nil => simp [AreBareEntries]
  | cons entry rest ih =>
      obtain ⟨key, value⟩ := entry
      simp [AreBareEntries, ih]

/-- Bare values have bare parts. -/
theorem handedDown_isBare : HandedDown IsBare where
  list := areBare_iff.mp
  tuple := areBare_iff.mp
  set := areBare_iff.mp
  stream := areBare_iff.mp
  map hentries entry hentry := (areBareEntries_iff.mp hentries.2 entry hentry).2
  int _ := trivial
  text _ := trivial
  pair hkey hvalue := areBare_iff.mpr (by simpa using ⟨hkey, hvalue⟩)

end Native

end TypedVariant
