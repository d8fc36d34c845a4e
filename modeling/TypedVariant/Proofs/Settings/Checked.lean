import Mathlib.Tactic.SplitIfs
import TypedVariant.Proofs.Attempt
import TypedVariant.Settings.Load

/-!
# Checked settings

Every change of settings checks the limit, so settings that are made and changed
by named values always keep it in its range. What is unpacked within such a limit
also nests within the greatest depth, at which types are read back.
-/

namespace TypedVariant.Settings

/-- The limit is one that the field of the limit takes. -/
def IsChecked (settings : Settings) : Prop :=
  1 ≤ settings.maxDepth ∧ settings.maxDepth ≤ maxDepthLimit

instance (settings : Settings) : Decidable settings.IsChecked :=
  inferInstanceAs (Decidable (_ ∧ _))

theorem isChecked_default : ({} : Settings).IsChecked := by
  decide

/-- A change of checked settings ends in checked settings. -/
theorem IsChecked.update [Codecs] [Coercion] {base settings : Settings}
    {values : List (String × Native)}
    (hbase : base.IsChecked) (hupdate : base.update values = .ok settings) :
    settings.IsChecked := by
  unfold Settings.update at hupdate
  split at hupdate
  next =>
    dsimp only at hupdate
    split at hupdate
    next maxDepth textEncoding hdepth _ =>
      obtain rfl := Except.ok.inj hupdate
      rw [maxDepthOf?, Option.filter_eq_some_iff] at hdepth
      exact of_decide_eq_true hdepth.2
    next => simp at hupdate
  next =>
    obtain rfl := Except.ok.inj hupdate
    exact hbase

/-- Settings made of named values are checked. -/
theorem isChecked_of_ofFields [Codecs] [Coercion] {settings : Settings}
    {values : List (String × Native)}
    (hmade : ofFields values = .ok settings) : settings.IsChecked := by
  unfold ofFields at hmade
  dsimp only at hmade
  split at hmade
  next => simp at hmade
  next made hupdate =>
    split_ifs at hmade
    obtain rfl := Except.ok.inj hmade
    exact isChecked_default.update hupdate

/-! ## Settings that are loaded -/

theorem IsChecked.override [Codecs] [Coercion] {base settings : Settings}
    {values : List (String × Native)}
    (hbase : base.IsChecked) (hoverride : base.override values = .ok settings) :
    settings.IsChecked :=
  hbase.update (mapError_eq_ok_iff.mp hoverride)

theorem IsChecked.fromEnvironment [Codecs] [Coercion] {environment : Environment} {start : String}
    {base settings : Settings} (hbase : base.IsChecked)
    (hread : Settings.fromEnvironment environment start base = .ok settings) :
    settings.IsChecked := by
  unfold Settings.fromEnvironment at hread
  cases hdepth : setVariable? environment (depthVariable start) with
  | none =>
      rw [hdepth] at hread
      exact hbase.override hread
  | some value =>
      rw [hdepth] at hread
      cases hnumber : Numeral.intOfText? value with
      | none => simp [hnumber, throw, throwThe, MonadExceptOf.throw, bind, Except.bind] at hread
      | some n =>
          simp only [hnumber] at hread
          exact hbase.override hread

/-- Settings that are loaded from files and the environment are checked. -/
theorem isChecked_of_load [Codecs] [Coercion] {environment : Environment} {files : Files}
    {path : Option String}
    {settings : Settings} (hload : load environment files path = .ok settings) :
    settings.IsChecked := by
  obtain ⟨fromFiles, hfiles, henvironment⟩ := bind_eq_ok_iff.mp hload
  obtain ⟨table, -, hoverride⟩ := bind_eq_ok_iff.mp hfiles
  exact (isChecked_default.override hoverride).fromEnvironment henvironment

end TypedVariant.Settings
