import TypedVariant.Bisection
import TypedVariant.Proofs.Attempt

/-!
# Sorting loses no items

Whatever the comparisons say, the sorted list has the items of the given one. Sorting
compares these items with each other and does nothing else that could go wrong, so it
fails only as one of the comparisons does. Where the comparisons follow an order, the
sorted list is in this order.
-/

namespace TypedVariant.Bisection

variable {α ε : Type} {less : α → α → Except ε Bool} {x latest : α}
  {items sorted earlier run rest : List α} {P : α → Prop} {Q : ε → Prop}

/-! ## The items of the result -/

theorem insert_perm (hinsert : insert less x items = .ok sorted) :
    sorted.Perm (x :: items) := by
  fun_induction insert less x items generalizing sorted
  case case1 items hnone =>
    obtain rfl := Except.ok.inj hinsert
    obtain rfl : items = [] := by
      have hlength := List.drop_eq_nil_iff.mp hnone
      exact List.length_eq_zero_iff.mp (by omega)
    exact .refl _
  case case2 items middle above hdrop below _ ihbelow ihabove =>
    have hitems : items = below ++ middle :: above := by
      rw [← hdrop, List.take_append_drop]
    rw [hitems]
    obtain ⟨outcome, -, hplace⟩ := bind_eq_ok_iff.mp hinsert
    split at hplace
    next =>
      obtain ⟨lower, hlower, hsorted⟩ := bind_eq_ok_iff.mp hplace
      obtain rfl := Except.ok.inj hsorted
      exact (ihbelow hlower).append_right _
    next =>
      obtain ⟨upper, hupper, hsorted⟩ := bind_eq_ok_iff.mp hplace
      obtain rfl := Except.ok.inj hsorted
      have hswapped := ((ihabove hupper).cons middle).trans (.swap x middle above)
      exact (hswapped.append_left below).trans List.perm_middle

theorem rise_perm (hrise : rise less latest earlier items = .ok (run, rest)) :
    (run ++ rest).Perm (latest :: earlier ++ items) := by
  induction items generalizing latest earlier with
  | nil =>
      cases hrise
      exact (List.reverse_perm _).append_right []
  | cons x items ih =>
      obtain ⟨outcome, -, hrest⟩ := bind_eq_ok_iff.mp hrise
      split at hrest
      next =>
        cases hrest
        exact (List.reverse_perm _).append_right _
      next =>
        have hmiddle : (latest :: earlier ++ x :: items).Perm (x :: (latest :: earlier ++ items)) :=
          List.perm_middle
        exact (ih hrest).trans hmiddle.symm

theorem fall_perm (hfall : fall less latest earlier items = .ok (run, rest)) :
    (run ++ rest).Perm (latest :: earlier ++ items) := by
  induction items generalizing latest earlier with
  | nil =>
      cases hfall
      exact .refl _
  | cons x items ih =>
      obtain ⟨outcome, -, hrest⟩ := bind_eq_ok_iff.mp hfall
      split at hrest
      next =>
        have hmiddle : (latest :: earlier ++ x :: items).Perm (x :: (latest :: earlier ++ items)) :=
          List.perm_middle
        exact (ih hrest).trans hmiddle.symm
      next =>
        cases hrest
        exact .refl _

theorem takeRun_perm (htake : takeRun less items = .ok (run, rest)) :
    (run ++ rest).Perm items := by
  unfold takeRun at htake
  split at htake
  next a b items =>
    obtain ⟨outcome, -, hrun⟩ := bind_eq_ok_iff.mp htake
    split at hrun
    next => exact (fall_perm hrun).trans (.swap a b items)
    next => exact (rise_perm hrun).trans (.swap a b items)
  next =>
    cases htake
    rw [List.append_nil]

theorem insertAll_perm
    (hfold : rest.foldlM (fun sorted x => insert less x sorted) run = .ok sorted) :
    sorted.Perm (run ++ rest) := by
  induction rest generalizing run with
  | nil =>
      obtain rfl := Except.ok.inj hfold
      rw [List.append_nil]
  | cons x rest ih =>
      rw [List.foldlM_cons] at hfold
      obtain ⟨next, hinsert, hfold⟩ := bind_eq_ok_iff.mp hfold
      exact (ih hfold).trans
        (((insert_perm hinsert).append_right rest).trans List.perm_middle.symm)

/-- Sorting rearranges the items. -/
theorem sort_perm (hsort : sort less items = .ok sorted) : sorted.Perm items := by
  obtain ⟨⟨run, rest⟩, htake, hfold⟩ := bind_eq_ok_iff.mp hsort
  exact (insertAll_perm hfold).trans (takeRun_perm htake)

/-! ## What sorting fails by -/

section

variable (hless : ∀ a b, P a → P b → FailsOnly Q (less a b))
include hless

theorem insert_failsOnly (hx : P x) (hitems : ∀ item ∈ items, P item) :
    FailsOnly Q (insert less x items) := by
  fun_induction insert less x items with
  | case1 => exact .ok _
  | case2 items middle above hdrop below _ ihbelow ihabove =>
      have hall : items = below ++ middle :: above := by
        rw [← hdrop, List.take_append_drop]
      rw [hall, List.forall_mem_append, List.forall_mem_cons] at hitems
      obtain ⟨hbelow, hmiddle, habove⟩ := hitems
      refine (hless x middle hx hmiddle).bind (fun outcome _ => ?_)
      split
      next => exact (ihbelow hbelow).bind (fun _ _ => .ok _)
      next => exact (ihabove habove).bind (fun _ _ => .ok _)

theorem rise_failsOnly (hlatest : P latest) (hitems : ∀ item ∈ items, P item) :
    FailsOnly Q (rise less latest earlier items) := by
  induction items generalizing latest earlier with
  | nil => exact .ok _
  | cons x items ih =>
      obtain ⟨hx, hitems⟩ := List.forall_mem_cons.mp hitems
      refine (hless x latest hx hlatest).bind (fun outcome _ => ?_)
      split
      next => exact .ok _
      next => exact ih hx hitems

theorem fall_failsOnly (hlatest : P latest) (hitems : ∀ item ∈ items, P item) :
    FailsOnly Q (fall less latest earlier items) := by
  induction items generalizing latest earlier with
  | nil => exact .ok _
  | cons x items ih =>
      obtain ⟨hx, hitems⟩ := List.forall_mem_cons.mp hitems
      refine (hless x latest hx hlatest).bind (fun outcome _ => ?_)
      split
      next => exact ih hx hitems
      next => exact .ok _

theorem takeRun_failsOnly (hitems : ∀ item ∈ items, P item) :
    FailsOnly Q (takeRun less items) := by
  unfold takeRun
  split
  next a b items =>
    rw [List.forall_mem_cons, List.forall_mem_cons] at hitems
    obtain ⟨ha, hb, hitems⟩ := hitems
    refine (hless b a hb ha).bind (fun outcome _ => ?_)
    split
    next => exact fall_failsOnly hless hb hitems
    next => exact rise_failsOnly hless hb hitems
  next => exact .ok _

theorem insertAll_failsOnly (hrun : ∀ item ∈ run, P item) (hrest : ∀ item ∈ rest, P item) :
    FailsOnly Q (rest.foldlM (fun sorted x => insert less x sorted) run) := by
  induction rest generalizing run with
  | nil => exact .ok _
  | cons x rest ih =>
      obtain ⟨hx, hrest⟩ := List.forall_mem_cons.mp hrest
      rw [List.foldlM_cons]
      refine (insert_failsOnly hless hx hrun).bind (fun next hinsert => ih ?_ hrest)
      exact fun item hitem => List.forall_mem_cons.mpr ⟨hx, hrun⟩ item
        ((insert_perm hinsert).mem_iff.mp hitem)

/-- Sorting fails only as a comparison of two items does. -/
theorem sort_failsOnly (hitems : ∀ item ∈ items, P item) : FailsOnly Q (sort less items) := by
  refine (takeRun_failsOnly hless hitems).bind ?_
  rintro ⟨run, rest⟩ htake
  have hparts : ∀ item ∈ run ++ rest, P item :=
    fun item hitem => hitems item ((takeRun_perm htake).mem_iff.mp hitem)
  obtain ⟨hrun, hrest⟩ := List.forall_mem_append.mp hparts
  exact insertAll_failsOnly hless hrun hrest

end

/-! ## The order of the result -/

/-- Among some items the comparison follows an order: the one that is less comes first, and else it
comes last. -/
structure FollowsOrder (less : α → α → Except ε Bool) (le : α → α → Prop) (P : α → Prop) :
    Prop where
  trans : ∀ a b c, le a b → le b c → le a c
  before : ∀ a b, P a → P b → less a b = .ok true → le a b
  behind : ∀ a b, P a → P b → less a b = .ok false → le b a

section

variable {le : α → α → Prop} (hfollows : FollowsOrder less le P)
include hfollows

/-- What is less than the middle may join the items below it. -/
theorem pairwise_below {middle : α} {below above lower : List α} (hless : le x middle)
    (hsorted : (below ++ middle :: above).Pairwise le) (hlower : lower.Pairwise le)
    (hperm : lower.Perm (x :: below)) : (lower ++ middle :: above).Pairwise le := by
  obtain ⟨-, hrest, hacross⟩ := List.pairwise_append.mp hsorted
  have hmiddleFirst := (List.pairwise_cons.mp hrest).1
  refine List.pairwise_append.mpr ⟨hlower, hrest, fun a ha b hb => ?_⟩
  obtain rfl | ha := List.mem_cons.mp (hperm.mem_iff.mp ha)
  · obtain rfl | hb := List.mem_cons.mp hb
    · exact hless
    · exact hfollows.trans _ _ _ hless (hmiddleFirst b hb)
  · exact hacross a ha b hb

/-- What is not less than the middle may join the items above it. -/
theorem pairwise_above {middle : α} {below above upper : List α} (hbehind : le middle x)
    (hsorted : (below ++ middle :: above).Pairwise le) (hupper : upper.Pairwise le)
    (hperm : upper.Perm (x :: above)) : (below ++ middle :: upper).Pairwise le := by
  obtain ⟨hbelow, hrest, hacross⟩ := List.pairwise_append.mp hsorted
  have hmiddleFirst := (List.pairwise_cons.mp hrest).1
  have hmem {b : α} (hb : b ∈ upper) : b = x ∨ b ∈ above :=
    List.mem_cons.mp (hperm.mem_iff.mp hb)
  refine List.pairwise_append.mpr
    ⟨hbelow, List.pairwise_cons.mpr ⟨fun b hb => ?_, hupper⟩, fun a ha b hb => ?_⟩
  · obtain rfl | hb := hmem hb
    · exact hbehind
    · exact hmiddleFirst b hb
  · obtain rfl | hb := List.mem_cons.mp hb
    · exact hacross a ha b List.mem_cons_self
    · obtain rfl | hb := hmem hb
      · exact hfollows.trans _ _ _ (hacross a ha middle List.mem_cons_self) hbehind
      · exact hacross a ha b (List.mem_cons_of_mem _ hb)

theorem insert_pairwise (hx : P x) (hitems : ∀ item ∈ items, P item)
    (hsorted : items.Pairwise le) (hinsert : insert less x items = .ok sorted) :
    sorted.Pairwise le := by
  fun_induction insert less x items generalizing sorted
  case case1 =>
    obtain rfl := Except.ok.inj hinsert
    exact List.pairwise_singleton le x
  case case2 items middle above hdrop below _ ihbelow ihabove =>
    have hall : items = below ++ middle :: above := by
      rw [← hdrop, List.take_append_drop]
    rw [hall, List.forall_mem_append, List.forall_mem_cons] at hitems
    obtain ⟨hbelow, hmiddle, habove⟩ := hitems
    rw [hall] at hsorted
    obtain ⟨hbelowSorted, hrest, -⟩ := List.pairwise_append.mp hsorted
    obtain ⟨outcome, houtcome, hplace⟩ := bind_eq_ok_iff.mp hinsert
    -- The half that takes the item stays in order by induction; the other half is kept as it is.
    split at hplace
    next hless =>
      subst hless
      obtain ⟨lower, hlower, hjoined⟩ := bind_eq_ok_iff.mp hplace
      obtain rfl := Except.ok.inj hjoined
      exact pairwise_below hfollows (hfollows.before x middle hx hmiddle houtcome) hsorted
        (ihbelow hbelow hbelowSorted hlower) (insert_perm hlower)
    next hnot =>
      obtain rfl : outcome = false := by simpa using hnot
      obtain ⟨upper, hupper, hjoined⟩ := bind_eq_ok_iff.mp hplace
      obtain rfl := Except.ok.inj hjoined
      exact pairwise_above hfollows (hfollows.behind x middle hx hmiddle houtcome) hsorted
        (ihabove habove (List.pairwise_cons.mp hrest).2 hupper) (insert_perm hupper)

/-- A rising run is kept with its latest item first, and turned round in the end. -/
theorem rise_pairwise (hlatest : P latest) (hitems : ∀ item ∈ items, P item)
    (hkept : (latest :: earlier).Pairwise (fun a b => le b a))
    (hrise : rise less latest earlier items = .ok (run, rest)) : run.Pairwise le := by
  induction items generalizing latest earlier with
  | nil =>
      cases hrise
      exact List.pairwise_reverse.mpr hkept
  | cons x items ih =>
      obtain ⟨hx, hitems⟩ := List.forall_mem_cons.mp hitems
      obtain ⟨outcome, houtcome, hrest⟩ := bind_eq_ok_iff.mp hrise
      split at hrest
      next =>
        cases hrest
        exact List.pairwise_reverse.mpr hkept
      next hnot =>
        obtain rfl : outcome = false := by simpa using hnot
        have hstep := hfollows.behind x latest hx hlatest houtcome
        refine ih hx hitems (List.pairwise_cons.mpr ⟨fun a ha => ?_, hkept⟩) hrest
        obtain rfl | ha := List.mem_cons.mp ha
        · exact hstep
        · exact hfollows.trans _ _ _ ((List.pairwise_cons.mp hkept).1 a ha) hstep

theorem fall_pairwise (hlatest : P latest) (hitems : ∀ item ∈ items, P item)
    (hkept : (latest :: earlier).Pairwise le)
    (hfall : fall less latest earlier items = .ok (run, rest)) : run.Pairwise le := by
  induction items generalizing latest earlier with
  | nil =>
      cases hfall
      exact hkept
  | cons x items ih =>
      obtain ⟨hx, hitems⟩ := List.forall_mem_cons.mp hitems
      obtain ⟨outcome, houtcome, hrest⟩ := bind_eq_ok_iff.mp hfall
      split at hrest
      next hless =>
        subst hless
        have hstep := hfollows.before x latest hx hlatest houtcome
        refine ih hx hitems (List.pairwise_cons.mpr ⟨fun a ha => ?_, hkept⟩) hrest
        obtain rfl | ha := List.mem_cons.mp ha
        · exact hstep
        · exact hfollows.trans _ _ _ hstep ((List.pairwise_cons.mp hkept).1 a ha)
      next =>
        cases hrest
        exact hkept

theorem takeRun_pairwise (hitems : ∀ item ∈ items, P item)
    (htake : takeRun less items = .ok (run, rest)) : run.Pairwise le := by
  unfold takeRun at htake
  split at htake
  next a b items =>
    rw [List.forall_mem_cons, List.forall_mem_cons] at hitems
    obtain ⟨ha, hb, hitems⟩ := hitems
    obtain ⟨outcome, houtcome, hrun⟩ := bind_eq_ok_iff.mp htake
    split at hrun
    next hless =>
      subst hless
      have hstep := hfollows.before b a hb ha houtcome
      exact fall_pairwise hfollows hb hitems (by simpa using hstep) hrun
    next hnot =>
      obtain rfl : outcome = false := by simpa using hnot
      have hstep := hfollows.behind b a hb ha houtcome
      exact rise_pairwise hfollows hb hitems (by simpa using hstep) hrun
  next hshort =>
    cases htake
    obtain _ | ⟨a, _ | ⟨b, more⟩⟩ := items
    · exact .nil
    · exact List.pairwise_singleton le a
    · exact absurd rfl (hshort a b more)

theorem insertAll_pairwise (hrun : ∀ item ∈ run, P item) (hrest : ∀ item ∈ rest, P item)
    (hsorted : run.Pairwise le)
    (hfold : rest.foldlM (fun sorted x => insert less x sorted) run = .ok sorted) :
    sorted.Pairwise le := by
  induction rest generalizing run with
  | nil =>
      obtain rfl := Except.ok.inj hfold
      exact hsorted
  | cons x rest ih =>
      obtain ⟨hx, hrest⟩ := List.forall_mem_cons.mp hrest
      rw [List.foldlM_cons] at hfold
      obtain ⟨next, hinsert, hfold⟩ := bind_eq_ok_iff.mp hfold
      refine ih ?_ hrest (insert_pairwise hfollows hx hrun hsorted hinsert) hfold
      exact fun item hitem => List.forall_mem_cons.mpr ⟨hx, hrun⟩ item
        ((insert_perm hinsert).mem_iff.mp hitem)

/-- Sorting ends in the order that the comparisons follow. -/
theorem sort_pairwise (hitems : ∀ item ∈ items, P item) (hsort : sort less items = .ok sorted) :
    sorted.Pairwise le := by
  obtain ⟨⟨run, rest⟩, htake, hfold⟩ := bind_eq_ok_iff.mp hsort
  have hparts : ∀ item ∈ run ++ rest, P item :=
    fun item hitem => hitems item ((takeRun_perm htake).mem_iff.mp hitem)
  obtain ⟨hrun, hrest⟩ := List.forall_mem_append.mp hparts
  exact insertAll_pairwise hfollows hrun hrest (takeRun_pairwise hfollows hitems htake) hfold

end

end TypedVariant.Bisection
