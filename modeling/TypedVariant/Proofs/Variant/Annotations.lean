import TypedVariant.Proofs.Variant.Printing

/-!
# Annotated printed forms

Annotated text is what stands in the brackets of a box, where no type is known. It tells
the type and all of the content of a variant without doubles, as long as every maybe with
a value shows that it is one. A value that is no maybe itself is printed without its
maybe. Unless the word for a maybe stands in front, the text is then also that of the
value alone.
-/

namespace TypedVariant.Variant

variable {a b v : Variant} {type other : SigType}

/-- Whatever is printed in a box is the annotated text of its content. -/
theorem display_box (htyped : HasType v type) (annotate : Bool) :
    (box v).display annotate = .ok ("<" ++ v.printed true ++ ">") := by
  rw [display_eq_printed (.box htyped)]
  apply congrArg Except.ok
  rw [← String.toList_inj]
  simp [printed, print]

/-- Typed variants with the same annotated text are the same. -/
theorem eq_of_printed (ha : HasType a type) (hb : HasType b other) (hta : a.Tells true false)
    (htb : b.Tells true false) (htext : a.printed true = b.printed true) : a = b := by
  have hsame : a.print true ++ [] = b.print true ++ [] := by
    rw [List.append_nil, List.append_nil, ← String.toList_ofList (l := a.print true),
      ← String.toList_ofList (l := b.print true)]
    exact congrArg String.toList htext
  have hends : Text.Ends [] := by rintro c ⟨⟩
  have hapart := standsOut_of_hasType ha true false b other ⟨ha, hb, by simp, by simp, hta, htb⟩
  exact (hapart.alone [] [] hends hends hsame).1

/-- Built variants without doubles have annotated texts, which are those that boxes print around
them. If the texts of two of them are the same, so are their types and the variants themselves,
provided that every maybe printed with annotations shows that it is one. -/
theorem annotated_text_tells_type (ha : Built a) (hb : Built b) (hdoublesA : a.HoldsNoDouble)
    (hdoublesB : b.HoldsNoDouble) (hmaybesA : a.showsMaybes true false = true)
    (hmaybesB : b.showsMaybes true false = true) :
    ∃ s t, a.display true = .ok s ∧ b.display true = .ok t ∧
      (∀ annotate, (box a).display annotate = .ok ("<" ++ s ++ ">")) ∧
      (∀ annotate, (box b).display annotate = .ok ("<" ++ t ++ ">")) ∧
      (s = t → a.typeString = b.typeString ∧ a = b) := by
  obtain ⟨type, htypedA⟩ := ha.isTyped
  obtain ⟨other, htypedB⟩ := hb.isTyped
  refine ⟨_, _, display_eq_printed htypedA true, display_eq_printed htypedB true,
    display_box htypedA, display_box htypedB, ?_⟩
  intro htext
  obtain rfl := eq_of_printed htypedA htypedB ⟨hdoublesA, hmaybesA⟩ ⟨hdoublesB, hmaybesB⟩ htext
  exact ⟨rfl, rfl⟩

/-- Behind the word that is written for the outer maybe, the inner one is known to be one. -/
example : (just (just (integer .int32 5))).showsMaybes true false = true := by rfl

/-- An integer that stands alone in an array, and one behind an absent value. -/
theorem annotated_text_tells_type_arrays :
    ∃ a b s t, a = Variant.array "i" [.integer .int32 5] ∧
      b = Variant.array "mi" [.nothing "i", .just (.integer .int32 5)] ∧ Built a ∧ Built b ∧
      a.HoldsNoDouble ∧ b.HoldsNoDouble ∧ a.showsMaybes true false = true ∧
      b.showsMaybes true false = true ∧
      a.display true = .ok s ∧ b.display true = .ok t ∧ s ≠ t := by
  have hfive : Built (.integer .int32 5) := @Built.basic (.integer .int32) (.int 5) _ (by rfl)
  have habsent : Built (.nothing "i") :=
    @Built.maybe (some (.text "i")) .null _ (by simp [TypeSource.IsParsed])
      (by simp [Native.variants]) (by rfl)
  have hpresent : Built (.just (.integer .int32 5)) :=
    @Built.maybe none (.variant (.integer .int32 5)) _ (by simp)
      (by simpa [Native.variants] using hfive) (by rfl)
  have ha : Built (.array "i" [.integer .int32 5]) :=
    @Built.array none (.list [.variant (.integer .int32 5)]) _ (by simp)
      (by simpa [Native.variants, Native.variantsAll] using hfive) (by rfl)
  have hb : Built (.array "mi" [.nothing "i", .just (.integer .int32 5)]) :=
    @Built.array none (.list [.variant (.nothing "i"), .variant (.just (.integer .int32 5))]) _
      (by simp) (by simpa [Native.variants, Native.variantsAll] using ⟨habsent, hpresent⟩) (by rfl)
  have hnumber : (integer .int32 5).HoldsNoDouble :=
    holdsNoDouble_iff.mpr ⟨by simp, by simp [children?]⟩
  have hdoublesA : (array "i" [.integer .int32 5]).HoldsNoDouble :=
    holdsNoDouble_iff.mpr ⟨by simp, List.forall_mem_singleton.mpr hnumber⟩
  have hdoublesB : (array "mi" [.nothing "i", .just (.integer .int32 5)]).HoldsNoDouble := by
    refine holdsNoDouble_iff.mpr ⟨by simp, List.forall_mem_cons.mpr ⟨?_, ?_⟩⟩
    · exact holdsNoDouble_iff.mpr ⟨by simp, by simp [children?]⟩
    · exact List.forall_mem_singleton.mpr
        (holdsNoDouble_iff.mpr ⟨by simp, List.forall_mem_singleton.mpr hnumber⟩)
  obtain ⟨s, t, hs, ht, -, -, hsame⟩ :=
    annotated_text_tells_type ha hb hdoublesA hdoublesB (by rfl) (by rfl)
  refine ⟨_, _, s, t, rfl, rfl, ha, hb, hdoublesA, hdoublesB, by rfl, by rfl, hs, ht, ?_⟩
  exact fun htext => by simpa using (hsame htext).2

/-- An integer and a maybe with the same integer are printed alike, also in a box. -/
theorem annotated_text_hides_maybe :
    ∃ a b, a = Variant.integer .int32 5 ∧ b = Variant.just a ∧ Built a ∧ Built b ∧
      a.HoldsNoDouble ∧ b.HoldsNoDouble ∧ a.display true = .ok "5" ∧ b.display true = .ok "5" ∧
      (box a).display false = .ok "<5>" ∧ (box b).display false = .ok "<5>" ∧
      a.typeString ≠ b.typeString := by
  have hfive : Built (.integer .int32 5) := @Built.basic (.integer .int32) (.int 5) _ (by rfl)
  have hpresent : Built (.just (.integer .int32 5)) :=
    @Built.maybe none (.variant (.integer .int32 5)) _ (by simp)
      (by simpa [Native.variants] using hfive) (by rfl)
  have hnumber : (integer .int32 5).HoldsNoDouble :=
    holdsNoDouble_iff.mpr ⟨by simp, by simp [children?]⟩
  exact ⟨_, _, rfl, rfl, hfive, hpresent, hnumber,
    holdsNoDouble_iff.mpr ⟨by simp, List.forall_mem_singleton.mpr hnumber⟩,
    by rfl, by rfl, by rfl, by rfl, by decide⟩

end TypedVariant.Variant
