import TypedVariant.Proofs.Unpack.Outcome

/-!
# Unpacking fails by its depth alone

Built variants store what their types announce, so unpacking them asks for nothing
that they do not have. Type strings are read back within the greatest depth that
settings may allow. Where all of them nest no deeper than this, the reach of the
unpacking alone decides whether there is a value.
-/

namespace TypedVariant.Variant

/-- The variants that are met in a variant on the way down, itself among them. The content of a box
is one of them. -/
inductive Holds : Variant → Variant → Prop
  | itself (v : Variant) : Holds v v
  | child {v w child : Variant} {children : List Variant}
      (hchildren : v.children? = some children) (hchild : child ∈ children)
      (hholds : Holds child w) : Holds v w

/-- The type that the type string spells nests no deeper than a limit. -/
def TypeNestsWithin (limit : Int) (v : Variant) : Prop :=
  ∀ type, IsCompleteType false type v.typeString.toList → (type.nesting : Int) ≤ limit

variable {v : Variant} {type : SigType} {opening : Opening}

theorem forall_holds_iff {P : Variant → Prop} :
    (∀ w, v.Holds w → P w) ↔
      P v ∧ ∀ child ∈ v.children?.getD [], ∀ w, child.Holds w → P w := by
  constructor
  · intro hall
    refine ⟨hall v (.itself v), fun child hchild w hw => hall w ?_⟩
    cases hchildren : v.children? with
    | none => simp [hchildren] at hchild
    | some children => exact .child hchildren (by simpa [hchildren] using hchild) hw
  · rintro ⟨hself, hbelow⟩ w hw
    cases hw with
    | itself => exact hself
    | child hchildren hchild hholds => exact hbelow _ (by rwa [hchildren]) w hholds

theorem hasReadableType_iff (hwf : type.WellFormed false)
    (hletters : v.typeLetters = type.letters) :
    v.HasReadableType ↔ (type.nesting : Int) ≤ maxDepthLimit := by
  have htext : v.typeString.toList = type.letters := by
    rw [typeString, String.toList_ofList, hletters]
  constructor
  · rintro ⟨found, hparse⟩
    obtain ⟨hadmits, hfound⟩ := Signature.parse_eq_ok_iff.mp hparse
    obtain rfl := SigType.letters_inj hwf hadmits.wellFormed (htext.symm.trans hfound)
    exact (Signature.admits_zero_iff.mp hadmits).2
  · intro hnesting
    exact ⟨type, Signature.parse_eq_ok_iff.mpr
      ⟨Signature.admits_zero_iff.mpr ⟨hwf, hnesting⟩, htext⟩⟩

/-- A typed variant has a type string that spells its type and no other. -/
theorem typeNestsWithin_iff {limit : Int} (htyped : HasType v type) :
    v.TypeNestsWithin limit ↔ (type.nesting : Int) ≤ limit := by
  rw [TypeNestsWithin, htyped.typeString, SigType.toList_text]
  constructor
  · intro hnests
    exact hnests type (SigType.isCompleteType_iff.mpr ⟨htyped.wellFormed, rfl⟩)
  · intro hnesting found hfound
    obtain ⟨hwf, htext⟩ := SigType.isCompleteType_iff.mp hfound
    rwa [← SigType.letters_inj htyped.wellFormed hwf htext]

/-- Unpacking reads no type strings but those of the variants that are held. -/
theorem isReadable_of_holds (htyped : HasType v type)
    (hnests : ∀ w, v.Holds w → w.TypeNestsWithin maxDepthLimit) : v.IsReadable opening := by
  induction htyped with
  | boolean | integer | double | text | nothing | bytes => trivial
  | box _ ih | just _ ih =>
      exact fun _ => ih (fun w hw => hnests w (.child rfl List.mem_cons_self hw))
  | tuple parts _ ih =>
      intro _
      rw [areReadable_iff, List.forall_mem_map]
      intro part hpart
      exact ih part hpart (fun w hw => hnests w (.child rfl (List.mem_map_of_mem hpart) hw))
  | array helement hbyte hitems ih =>
      have htyped := HasType.array helement hbyte hitems
      have hnesting := (typeNestsWithin_iff htyped).mp (hnests _ (.itself _))
      have hreadable := (hasReadableType_iff htyped.wellFormed htyped.typeLetters).mpr hnesting
      refine ⟨hreadable, fun _ => areReadable_iff.mpr ?_⟩
      exact fun item hitem => ih item hitem (fun w hw => hnests w (.child rfl hitem hw))
  | entry _ _ ihkey ihvalue =>
      exact fun _ => ⟨ihkey (fun w hw => hnests w (.child rfl (by simp) hw)),
        ihvalue (fun w hw => hnests w (.child rfl (by simp) hw))⟩

/-- What a typed variant holds is typed. -/
theorem IsTyped.of_holds {w : Variant} (hv : v.IsTyped) (hholds : v.Holds w) : w.IsTyped := by
  induction hholds with
  | itself => exact hv
  | child hchildren hchild _ ih => exact ih (hv.children? hchildren _ hchild)

/-- Whatever the key of a typed entry unpacks to can be a key. -/
theorem changeable?_of_unpackAt_key {key value : Variant} {settings : Settings} {depth : Int}
    {k : Native} (htyped : (entry key value).IsTyped)
    (hkey : key.unpackAt settings opening depth = .ok k) : k.changeable? = none := by
  obtain ⟨type, htyped⟩ := htyped
  cases htyped with
  | entry hbasic _ =>
      obtain ⟨-, -, rfl⟩ := (settles_unpackAt hbasic settings opening depth).eq_ok_iff.mp hkey
      cases hbasic <;> rfl

/-- Unpacking a built variant whose type strings can be read back is refused exactly if it reaches
beyond the limit, and then for its depth; otherwise it comes to its value. All keys that it stores
can be keys. -/
theorem unpacking_fails_by_depth_alone (hbuilt : Built v)
    (hnests : ∀ w, v.Holds w → w.TypeNestsWithin maxDepthLimit) (settings : Settings)
    (deep recursive : Bool) :
    (v.unpack settings (.ofFlags deep recursive) = .error (.tooDeep settings.maxDepth) ↔
      settings.maxDepth < v.reach (.ofFlags deep recursive)) ∧
    (v.reach (.ofFlags deep recursive) ≤ settings.maxDepth →
      v.unpack settings (.ofFlags deep recursive) =
        .ok (v.unpacked (.ofFlags deep recursive))) ∧
    (∀ key value, v.Holds (.entry key value) → ∀ opening depth k,
      key.unpackAt settings opening depth = .ok k → k.changeable? = none) := by
  obtain ⟨type, htyped⟩ := hbuilt.isTyped
  have hsettles := settles_unpackAt htyped settings (.ofFlags deep recursive) 0
  have hreadable : v.IsReadable (.ofFlags deep recursive) := isReadable_of_holds htyped hnests
  rw [Int.zero_add] at hsettles
  refine ⟨?_, ?_, ?_⟩
  · exact (hsettles.eq_tooDeep_iff hreadable).trans Int.not_le
  · exact fun hfits => hsettles.eq_ok_iff.mpr ⟨hfits, hreadable, rfl⟩
  · intro key value hholds opening depth k hkey
    exact changeable?_of_unpackAt_key (hbuilt.isTyped.of_holds hholds) hkey

/-- A box in a dictionary is opened at the third level, which a limit of two does not allow. -/
theorem unpacking_fails_by_depth_alone_dictionary :
    ∃ v, Built v ∧ (∀ w, v.Holds w → w.TypeNestsWithin maxDepthLimit) ∧
      v = .array "{sv}" [.entry (.text .string "a") (.box (.boolean true))] ∧
      v.unpack { maxDepth := 2 } (.ofFlags true true) = .error (.tooDeep 2) ∧
      v.unpack { maxDepth := 3 } (.ofFlags true true) = .ok (.map [(.text "a", .bool true)]) := by
  have hvalue : Built (.boolean true) := @Built.basic .boolean (.bool true) _ (by rfl)
  have hbuilt : Built (.array "{sv}" [.entry (.text .string "a") (.box (.boolean true))]) := by
    refine @Built.map [(.text "a", .variant (.boolean true))] _ ?_ (by rfl)
    simpa [Native.variants, Native.variantsOfEntries] using hvalue
  have hreadable : ∀ w, Holds (.array "{sv}" [.entry (.text .string "a") (.box (.boolean true))])
      w → w.HasReadableType := by
    have hleaf (w : Variant) (hnone : w.children? = none) (hw : w.HasReadableType) :
        ∀ u, w.Holds u → u.HasReadableType :=
      forall_holds_iff.mpr ⟨hw, by simp [hnone]⟩
    refine forall_holds_iff.mpr ⟨⟨_, rfl⟩, List.forall_mem_singleton.mpr ?_⟩
    refine forall_holds_iff.mpr ⟨⟨_, rfl⟩, List.forall_mem_cons.mpr ⟨?_, ?_⟩⟩
    · exact hleaf _ rfl ⟨_, rfl⟩
    · refine List.forall_mem_singleton.mpr (forall_holds_iff.mpr ⟨⟨_, rfl⟩, ?_⟩)
      exact List.forall_mem_singleton.mpr (hleaf _ rfl ⟨_, rfl⟩)
  have hnests : ∀ w, Holds (.array "{sv}" [.entry (.text .string "a") (.box (.boolean true))]) w →
      w.TypeNestsWithin maxDepthLimit := by
    intro w hw
    obtain ⟨type, htyped⟩ := hbuilt.isTyped.of_holds hw
    rw [typeNestsWithin_iff htyped, ← hasReadableType_iff htyped.wellFormed htyped.typeLetters]
    exact hreadable w hw
  have hsettled := unpacking_fails_by_depth_alone hbuilt hnests
  refine ⟨_, hbuilt, hnests, rfl, ?_, ?_⟩
  · exact ((hsettled { maxDepth := 2 } true true).1).mpr (by decide)
  · exact (hsettled { maxDepth := 3 } true true).2.1 (by decide)

end TypedVariant.Variant
