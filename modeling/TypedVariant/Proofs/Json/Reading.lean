import TypedVariant.Json.Reader
import TypedVariant.Proofs.Codec.Limit
import TypedVariant.Proofs.Native.Keys
import TypedVariant.Proofs.Pack.Errors

/-!
# What JSON text stands for

Whatever text is read, what it stands for is null, a truth value, a number or a text,
or a list or a map of such values, with texts for keys. The reader holds nothing else
in the arrays and objects that are open, and no token changes that. So neither a
variant nor a range is ever read.
-/

namespace TypedVariant

namespace Json

/-- The values that JSON text stands for. -/
inductive IsData : Native → Prop
  | null : IsData .null
  | bool (value : Bool) : IsData (.bool value)
  | int (value : Int) : IsData (.int value)
  | double (value : Double) : IsData (.double value)
  | text (value : String) : IsData (.text value)
  | list {items : List Native} (hitems : ∀ item ∈ items, IsData item) : IsData (.list items)
  | map {entries : List (Native × Native)} (hkeys : ∀ entry ∈ entries, ∃ key, entry.1 = .text key)
      (hvalues : ∀ entry ∈ entries, IsData entry.2) : IsData (.map entries)

/-- The entries of a map that JSON text stands for. -/
def AreDataEntries (entries : List (Native × Native)) : Prop :=
  ∀ entry ∈ entries, (∃ key, entry.1 = .text key) ∧ IsData entry.2

theorem AreDataEntries.isData {entries : List (Native × Native)}
    (hentries : AreDataEntries entries) : IsData (.map entries) :=
  .map (fun entry hentry => (hentries entry hentry).1)
    (fun entry hentry => (hentries entry hentry).2)

/-! ## The state of the reader -/

/-- What has been read of an open array or object is data. -/
def Frame.HoldsData : Frame → Prop
  | array items => ∀ item ∈ items, IsData item
  | object entries _ => AreDataEntries entries

/-- Whatever has been read is data. -/
def Expecting.HoldsData : Expecting → Prop
  | value within | firstItem within | firstKey within => ∀ frame ∈ within, frame.HoldsData
  | key entries within | colon entries _ within | moreEntries entries within =>
      AreDataEntries entries ∧ ∀ frame ∈ within, frame.HoldsData
  | moreItems items within =>
      (∀ item ∈ items, IsData item) ∧ ∀ frame ∈ within, frame.HoldsData
  | nothing result => IsData result

variable {x result : Native} {within : List Frame} {token : Token} {expecting next : Expecting}

theorem holdsData_supply (hx : IsData x) (hwithin : ∀ frame ∈ within, frame.HoldsData) :
    (supply x within).HoldsData := by
  cases within with
  | nil => exact hx
  | cons frame outer =>
      obtain ⟨hframe, houter⟩ := List.forall_mem_cons.mp hwithin
      cases frame with
      | array items => exact ⟨List.forall_mem_cons.mpr ⟨hx, hframe⟩, houter⟩
      | object entries key =>
          have hentries := Native.forall_mem_insert (P := fun key => ∃ text, key = .text text)
            (Q := IsData) hframe ⟨String.ofList key, rfl⟩ hx
          exact ⟨hentries, houter⟩

theorem isData_wordValue (word : Word) : IsData (wordValue word) := by
  cases word with
  | null => exact .null
  | yes | no => exact .bool _
  | nan | infinity | minusInfinity => exact .double _

theorem holdsData_beginValue (hbegin : beginValue within token = .ok next)
    (hwithin : ∀ frame ∈ within, frame.HoldsData) : next.HoldsData := by
  unfold beginValue at hbegin
  split at hbegin
  next word =>
    obtain rfl := Except.ok.inj hbegin
    exact holdsData_supply (isData_wordValue word) hwithin
  next value =>
    split at hbegin
    next => cases hbegin
    next =>
      obtain rfl := Except.ok.inj hbegin
      exact holdsData_supply (.int value) hwithin
  next value =>
    obtain rfl := Except.ok.inj hbegin
    exact holdsData_supply (.double value) hwithin
  next value =>
    obtain rfl := Except.ok.inj hbegin
    exact holdsData_supply (.text _) hwithin
  next =>
    obtain rfl := Except.ok.inj hbegin
    exact hwithin
  next =>
    obtain rfl := Except.ok.inj hbegin
    exact hwithin
  next => cases hbegin

/-- No token changes that the reader holds nothing but data. -/
theorem holdsData_advance (hadvance : advance expecting token = .ok next)
    (hholds : expecting.HoldsData) : next.HoldsData := by
  unfold advance at hadvance
  -- The branches are those of the step, in its order; where a token is refused, nothing is next.
  split at hadvance
  next => exact holdsData_beginValue hadvance hholds
  next =>
    obtain rfl := Except.ok.inj hadvance
    exact holdsData_supply (.list (List.forall_mem_nil _)) hholds
  next =>
    refine holdsData_beginValue hadvance ?_
    exact List.forall_mem_cons.mpr ⟨List.forall_mem_nil _, hholds⟩
  next =>
    obtain rfl := Except.ok.inj hadvance
    exact holdsData_supply (.map (List.forall_mem_nil _) (List.forall_mem_nil _)) hholds
  next =>
    obtain rfl := Except.ok.inj hadvance
    exact ⟨List.forall_mem_nil _, hholds⟩
  next => cases hadvance
  next =>
    obtain rfl := Except.ok.inj hadvance
    exact hholds
  next => cases hadvance
  next =>
    obtain rfl := Except.ok.inj hadvance
    exact List.forall_mem_cons.mpr hholds
  next => cases hadvance
  next =>
    obtain rfl := Except.ok.inj hadvance
    exact List.forall_mem_cons.mpr hholds
  next =>
    obtain rfl := Except.ok.inj hadvance
    refine holdsData_supply (.list ?_) hholds.2
    exact fun item hitem => hholds.1 item (List.mem_reverse.mp hitem)
  next => cases hadvance
  next =>
    obtain rfl := Except.ok.inj hadvance
    exact hholds
  next =>
    obtain rfl := Except.ok.inj hadvance
    exact holdsData_supply (AreDataEntries.isData hholds.1) hholds.2
  next => cases hadvance
  next => cases hadvance

/-- Reading to the end of the text ends in data if it starts from data. -/
theorem isData_readTokens {length : Nat} {tokens : List (Token × Nat)}
    (hread : readTokens length expecting tokens = .ok result) (hholds : expecting.HoldsData) :
    IsData result := by
  induction tokens generalizing expecting with
  | nil =>
      unfold readTokens at hread
      split at hread
      next =>
        obtain rfl := Except.ok.inj hread
        exact hholds
      next => split at hread <;> cases hread
  | cons token rest ih =>
      unfold readTokens at hread
      split at hread
      next => cases hread
      next =>
        split at hread
        next hadvance => exact ih hread (holdsData_advance hadvance hholds)
        next => cases hread

theorem isData_of_read {text : String} (hread : read text = .ok x) : IsData x := by
  unfold read readChars at hread
  split at hread
  next => cases hread
  next => exact isData_readTokens hread (List.forall_mem_nil _)

/-! ## What data is free of -/

namespace IsData

theorem hasNoVariants (hx : IsData x) : x.HasNoVariants := by
  induction hx with
  | null | bool | int | double | text => trivial
  | list _ ih => exact Native.haveNoVariants_iff.mpr ih
  | map hkeys _ ih =>
      refine Native.entriesHaveNoVariants_iff.mpr (fun entry hentry => ⟨?_, ih entry hentry⟩)
      obtain ⟨key, hkey⟩ := hkeys entry hentry
      rw [hkey]
      trivial

theorem isTyped (hx : IsData x) : x.IsTyped := by
  induction hx with
  | null | bool | int | double | text => exact Native.isTyped_of_variants_eq_nil rfl
  | list _ ih =>
      intro v hv
      obtain ⟨item, hitem, hv⟩ := Native.mem_variantsAll.mp hv
      exact ih item hitem v hv
  | map hkeys _ ih =>
      intro v hv
      obtain ⟨entry, hentry, hv⟩ := Native.mem_variantsOfEntries.mp hv
      obtain ⟨key, hkey⟩ := hkeys entry hentry
      rw [hkey] at hv
      exact ih entry hentry v (hv.resolve_left List.not_mem_nil)

theorem not_holdsLongRange (hx : IsData x) : ¬x.HoldsLongRange := by
  induction hx with
  | null | bool | int | double | text =>
      rintro (_ | ⟨hitems, _, _⟩)
      cases hitems
  | list _ ih =>
      rintro (_ | ⟨hitems, hitem, hholds⟩)
      obtain rfl := Option.some.inj hitems
      exact ih _ hitem hholds
  | map hkeys _ ih =>
      rintro (_ | ⟨hitems, _, _⟩ | ⟨hentry, hholds⟩ | ⟨hentry, hholds⟩)
      · cases hitems
      · obtain ⟨key, hkey⟩ := hkeys _ hentry
        rw [hkey] at hholds
        obtain _ | ⟨hitems, _, _⟩ := hholds
        cases hitems
      · exact ih _ hentry hholds

end IsData

end Json

end TypedVariant
