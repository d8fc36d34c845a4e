import Mathlib
import TypedVariant.Proofs.Native.Keys
import TypedVariant.Proofs.Settings.Checked
import TypedVariant.Proofs.Text.Lower

/-!
# Where loaded settings come from

Each setting is taken by itself from the first source that gives it: a variable of the
environment, then the table that the files select, then the default. What a source gives is
brought into the form in which settings are stored, and a layer above leaves this form as it is.

The stored name of an encoding is in lower case, and in lower case it may no longer be a name. This
happens only to names with the dotted capital I or the sign of the Kelvin. Settings with such a name
are loaded all the same, but then their limit cannot be changed.
-/

namespace TypedVariant.Settings

variable {x : Native} {name : String} {base settings : Settings}
  {values : List (String × Native)}

/-! ## Stored names -/

/-- The name of an encoding in the form in which it is stored. -/
structure IsStored (name : String) : Prop where
  trimmed : Text.trim name = name
  lowered : Text.lower name = name
  nonempty : name ≠ ""
  noNul : '\x00' ∉ name.toList

theorem isStored_default : IsStored defaultTextEncoding :=
  ⟨by decide +kernel, by decide +kernel, by decide, by decide⟩

theorem textEncodingOf?_eq_some_iff [Codecs] : textEncodingOf? x = some name ↔
    ∃ value, x = .text value ∧ Text.trim value ≠ "" ∧ '\x00' ∉ (Text.trim value).toList ∧
      (Codecs.find? (Text.trim value)).isSome = true ∧ name = Text.lower (Text.trim value) := by
  cases x with
  | text value =>
      simp only [textEncodingOf?, String.contains_char_eq, Option.ite_none_right_eq_some,
        Bool.and_eq_true, Bool.not_eq_true', decide_eq_false_iff_not, Native.text.injEq,
        exists_eq_left', and_assoc, Option.some_inj, @eq_comm _ name,
        String.isEmpty_eq_false_iff]
  | _ => simp [textEncodingOf?]

theorem isStored_of_textEncodingOf? [Codecs] (hname : textEncodingOf? x = some name) :
    IsStored name := by
  obtain ⟨value, rfl, hempty, hnul, -, rfl⟩ := textEncodingOf?_eq_some_iff.mp hname
  exact ⟨Text.trim_lower (Text.trim_trim value), Text.lower_lower _, Text.lower_ne_empty hempty,
    Text.nul_notMem_lower hnul⟩

/-- A stored name is taken as it is, if it is still known. -/
theorem IsStored.textEncodingOf?_eq_some_iff [Codecs] {other : String} (hstored : IsStored name) :
    textEncodingOf? (.text name) = some other ↔
      (Codecs.find? name).isSome = true ∧ other = name := by
  rw [Settings.textEncodingOf?_eq_some_iff]
  simp [hstored.trimmed, hstored.lowered, hstored.nonempty, hstored.noNul]

/-- Both characters that lead into ASCII are missing from a given name. -/
def KeepsWords (x : Native) : Prop :=
  ∀ value, x = .text value → Text.KeepsWords value.toList

theorem isSome_find?_of_keepsWords [Codecs] (hname : textEncodingOf? x = some name)
    (hkeeps : KeepsWords x) : (Codecs.find? name).isSome = true := by
  obtain ⟨value, rfl, -, -, hknown, rfl⟩ := textEncodingOf?_eq_some_iff.mp hname
  rw [Codecs.find?, Text.nameKey_lower]
  · exact hknown
  · rw [Text.trim, String.toList_ofList]
    exact (hkeeps value rfl).strip

/-! ## One change -/

theorem maxDepthOf?_int_iff [Coercion] {n m : Int} :
    maxDepthOf? (.int n) = some m ↔ (1 ≤ n ∧ n ≤ maxDepthLimit) ∧ m = n := by
  rw [maxDepthOf?, Coercion.integer?_int, Option.filter_eq_some_iff, Option.some_inj,
    decide_eq_true_iff]
  constructor
  · rintro ⟨rfl, hrange⟩
    exact ⟨hrange, rfl⟩
  · rintro ⟨hrange, rfl⟩
    exact ⟨rfl, hrange⟩

/-- Settings in the form in which they are stored. -/
structure IsPlain (settings : Settings) : Prop where
  checked : settings.IsChecked
  stored : IsStored settings.textEncoding

theorem isPlain_default : ({} : Settings).IsPlain :=
  ⟨isChecked_default, isStored_default⟩

/-- The encoding is that of an installed codec. -/
def IsKnown [Codecs] (settings : Settings) : Prop :=
  (Codecs.find? settings.textEncoding).isSome = true

theorem isKnown_default [Codecs] : ({} : Settings).IsKnown := by
  rw [IsKnown, @Codecs.find?_of_nameKey _ _ .utf8 (by decide)]
  rfl

/-- A change takes the limit that is given for it, or keeps the one before. -/
def TakesDepth [Coercion] (given : Option Native) (before after : Int) : Prop :=
  maxDepthOf? (given.getD (.int before)) = some after

/-- A change takes the encoding that is given for it, or keeps the one before. -/
def TakesEncoding [Codecs] (given : Option Native) (before after : String) : Prop :=
  match given with
  | some x => textEncodingOf? x = some after
  | none => after = before

theorem any_isFieldName_iff : (values.map Prod.fst).any isFieldName = true ↔
    (field? maxDepthName values).isSome = true ∨
      (field? textEncodingName values).isSome = true := by
  simp only [field?, Option.isSome_map, List.find?_isSome, List.any_map, List.any_eq_true,
    Function.comp_apply, isFieldName, Bool.or_eq_true, and_or_left, exists_or]

theorem eq_of_fields {other : Settings} (hdepth : settings.maxDepth = other.maxDepth)
    (hencoding : settings.textEncoding = other.textEncoding) : settings = other := by
  cases settings
  cases other
  simp_all

/-- Where a field is named, both are checked. -/
theorem update_of_named [Codecs] [Coercion]
    (hnamed : (values.map Prod.fst).any isFieldName = true) :
    base.update values = .ok settings ↔
      maxDepthOf? ((field? maxDepthName values).getD (.int base.maxDepth)) =
        some settings.maxDepth ∧
      textEncodingOf? ((field? textEncodingName values).getD (.text base.textEncoding)) =
        some settings.textEncoding := by
  obtain ⟨maxDepth, textEncoding⟩ := settings
  unfold Settings.update
  rw [if_pos hnamed]
  dsimp only
  cases maxDepthOf? ((field? maxDepthName values).getD (.int base.maxDepth)) with
  | none => simp
  | some _ =>
      cases textEncodingOf? ((field? textEncodingName values).getD (.text base.textEncoding)) with
      | none => simp
      | some _ => simp

theorem IsPlain.takesDepth_none_iff [Coercion] (hbase : base.IsPlain) {after : Int} :
    TakesDepth none base.maxDepth after ↔ after = base.maxDepth :=
  maxDepthOf?_int_iff.trans (and_iff_right hbase.checked)

/-- A change of plain settings is answered exactly if what is given is taken, and if the encoding
that is kept beside a new limit is still known. -/
theorem IsPlain.update_eq_ok_iff [Codecs] [Coercion] (hbase : base.IsPlain) :
    base.update values = .ok settings ↔
    TakesDepth (field? maxDepthName values) base.maxDepth settings.maxDepth ∧
      TakesEncoding (field? textEncodingName values) base.textEncoding settings.textEncoding ∧
      ((field? maxDepthName values).isSome = true → field? textEncodingName values = none →
        base.IsKnown) := by
  by_cases hnamed : (values.map Prod.fst).any isFieldName = true
  · rw [update_of_named hnamed]
    rw [any_isFieldName_iff] at hnamed
    cases hencoding : field? textEncodingName values with
    | some x => simp [TakesDepth, TakesEncoding]
    | none =>
        have hdepth : (field? maxDepthName values).isSome = true := by
          simpa [hencoding] using hnamed
        simp only [TakesDepth, TakesEncoding, Option.getD_none, hdepth, true_implies,
          hbase.stored.textEncodingOf?_eq_some_iff, IsKnown]
        exact and_congr_right fun _ => and_comm
  -- Without a name nothing is checked, so what is kept need not be known.
  · have hunchanged : base.update values = .ok base := by
      unfold Settings.update
      rw [if_neg hnamed]
    rw [any_isFieldName_iff, not_or, Option.not_isSome_iff_eq_none,
      Option.not_isSome_iff_eq_none] at hnamed
    obtain ⟨hdepth, hencoding⟩ := hnamed
    rw [hunchanged, hdepth, hencoding, hbase.takesDepth_none_iff]
    constructor
    · intro hsettings
      obtain rfl := Except.ok.inj hsettings
      exact ⟨rfl, rfl, by simp⟩
    · rintro ⟨hmaxDepth, htextEncoding, -⟩
      rw [eq_of_fields hmaxDepth htextEncoding]

theorem IsPlain.update [Codecs] [Coercion] (hbase : base.IsPlain)
    (hupdate : base.update values = .ok settings) :
    settings.IsPlain := by
  refine ⟨hbase.checked.update hupdate, ?_⟩
  obtain ⟨-, hencoding, -⟩ := hbase.update_eq_ok_iff.mp hupdate
  cases hgiven : field? textEncodingName values with
  | some x =>
      rw [hgiven] at hencoding
      exact isStored_of_textEncodingOf? hencoding
  | none =>
      rw [hgiven] at hencoding
      rw [show settings.textEncoding = base.textEncoding from hencoding]
      exact hbase.stored

/-! ## The table that the files select -/

/-- The values of a table are its members under their names. -/
theorem field?_namedValues (name : String) (table : Native) :
    field? name (namedValues table) = memberOf name table := by
  cases table with
  | map entries =>
      rw [namedValues, field?, memberOf, Native.lookup?]
      induction entries with
      | nil => rfl
      | cons entry rest ih =>
          obtain ⟨key, value⟩ := entry
          rw [List.filterMap_cons, List.find?_cons]
          cases key with
          | text other =>
              dsimp only
              rw [List.find?_cons]
              have hsame : (Native.text other).same (.text name) = (other == name) := by
                simp [Native.same, Native.isSameNaN, Native.equal]
              rw [hsame]
              cases other == name with
              | true => rfl
              | false => exact ih
          | _ => simpa [Native.same, Native.isSameNaN, Native.equal, Native.number?] using ih
  | _ => rfl

/-- What a file holds that may be missing. -/
def contentOf? : FileState → Option Toml.Table
  | .missing => some []
  | .file content => (Toml.read content).toOption
  | .directory | .overlong => none

/-- The table for settings in a file of their own: the one under its name, or else all of it. -/
def codecTable (own : Toml.Table) : Toml.Table :=
  match memberOf "codec" (.map own) with
  | some (.map entries) => entries
  | _ => own

/-- What a project file holds for settings, among its tools. -/
def toolTable (project : Toml.Table) : Native :=
  ((memberOf "tool" (.map project)).bind (memberOf "varcodec")).getD .null

/-- The first of the two tables counts that is not empty. The project file is read only where the
other one has none. -/
inductive Selects (files : Files) : Native → Prop
  | own {own : Toml.Table} (hown : contentOf? (files ownFile) = some own)
      (hfull : codecTable own ≠ []) : Selects files (.map (codecTable own))
  | project {own project : Toml.Table} (hown : contentOf? (files ownFile) = some own)
      (hempty : codecTable own = []) (hproject : contentOf? (files projectFile) = some project) :
      Selects files (toolTable project)

variable {files : Files} {environment : Environment} {found table : Native}

theorem tableOf_ownFile (own : Toml.Table) :
    tableOf (fileName ownFile) own = .map (codecTable own) := by
  have hname : fileName ownFile = ownFile := by decide
  rw [hname, tableOf, if_neg (by decide), codecTable]
  cases memberOf "codec" (.map own) with
  | none => rfl
  | some value => cases value <;> rfl

theorem tableOf_projectFile (project : Toml.Table) :
    tableOf (fileName projectFile) project = toolTable project := by
  have hname : fileName projectFile = projectFile := by decide
  rw [hname, tableOf, if_pos rfl, toolTable]

/-- Both values have the same members, which values other than tables do not have. -/
def SameMembers (x y : Native) : Prop :=
  ∀ name, memberOf name x = memberOf name y

/-- Nothing comes behind the project file. If it is missing, it is as if it were empty. -/
theorem selectTable_project (hfound : SameMembers found .null) :
    (∃ project last, contentOf? (files projectFile) = some project ∧
      selectTable files [projectFile] found = .ok last ∧ SameMembers last (toolTable project)) ∨
    contentOf? (files projectFile) = none ∧
      ∃ e, selectTable files [projectFile] found = .error e := by
  simp only [selectTable, tableOf_projectFile]
  cases files projectFile with
  | missing => exact .inl ⟨[], found, rfl, rfl, hfound⟩
  | directory | overlong => exact .inr ⟨rfl, _, rfl⟩
  | file content =>
      cases hread : Toml.read content with
      | error fault =>
          have hnone : contentOf? (.file content) = none := by
            simp [contentOf?, hread, Except.toOption]
          cases fault <;> exact .inr ⟨hnone, _, by simp only [hread]; rfl⟩
      | ok project =>
          have hcontent : contentOf? (.file content) = some project := by
            simp [contentOf?, hread, Except.toOption]
          exact .inl ⟨project, toolTable project, hcontent, by simp [hread], fun _ => rfl⟩

/-- Where the file for settings has none, the project file decides. -/
theorem selectTable_of_empty {own : Toml.Table} (hown : contentOf? (files ownFile) = some own)
    (hempty : codecTable own = []) (hfound : SameMembers found .null)
    (hnext : selectTable files (candidates none) .null = selectTable files [projectFile] found) :
    (∃ table found, Selects files table ∧
      selectTable files (candidates none) .null = .ok found ∧ SameMembers found table) ∨
    (∀ table, ¬Selects files table) ∧
      ∃ e, selectTable files (candidates none) .null = .error e := by
  rw [hnext]
  obtain ⟨project, last, hproject, hlast, hsame⟩ | ⟨hnone, hrefused⟩ :=
    selectTable_project hfound
  · exact .inl ⟨_, last, .project hown hempty hproject, hlast, hsame⟩
  · refine .inr ⟨?_, hrefused⟩
    rintro table (⟨hother, hfull⟩ | ⟨-, -, hproject⟩)
    · obtain rfl := Option.some.inj (hown.symm.trans hother)
      exact hfull hempty
    · rw [hnone] at hproject
      cases hproject

/-- The files are read to the table that they select, or else they are refused and select none. -/
theorem selectTable_candidates (files : Files) :
    (∃ table found, Selects files table ∧
      selectTable files (candidates none) .null = .ok found ∧ SameMembers found table) ∨
    (∀ table, ¬Selects files table) ∧
      ∃ e, selectTable files (candidates none) .null = .error e := by
  have hunread (hnone : contentOf? (files ownFile) = none) : ∀ table, ¬Selects files table := by
    rintro table (⟨hown, -⟩ | ⟨hown, -, -⟩) <;> simp [hnone] at hown
  have hstep := selectTable.eq_2 files .null ownFile [projectFile]
  cases hown : files ownFile with
  | missing =>
      have hcontent : contentOf? (files ownFile) = some [] := by rw [hown]; rfl
      refine selectTable_of_empty hcontent rfl (fun _ => rfl) ?_
      rw [candidates, hstep, hown]
  | directory | overlong =>
      refine .inr ⟨hunread (by rw [hown]; rfl), ?_⟩
      rw [candidates, hstep, hown]
      exact ⟨_, rfl⟩
  | file content =>
      rw [hown] at hstep
      cases hread : Toml.read content with
      | error fault =>
          refine .inr ⟨hunread (by simp [hown, contentOf?, hread, Except.toOption]), ?_⟩
          rw [candidates, hstep]
          cases fault <;> simp [hread]
      | ok own =>
          simp only [hread, tableOf_ownFile, Native.isTruthy] at hstep
          have hcontent : contentOf? (files ownFile) = some own := by
            simp [hown, contentOf?, hread, Except.toOption]
          cases htable : codecTable own with
          | nil =>
              -- The search goes on with an empty table in hand, which has the members of none.
              rw [htable] at hstep
              have hmembers : SameMembers (.map []) .null := fun _ => rfl
              exact selectTable_of_empty hcontent htable hmembers hstep
          | cons entry rest =>
              have hfull : codecTable own ≠ [] := by simp [htable]
              refine .inl ⟨_, _, .own hcontent hfull, hstep.trans ?_, fun _ => rfl⟩
              simp [htable]

/-- Files select one table at most. -/
theorem Selects.unique {other : Native} (h : Selects files table) (hother : Selects files other) :
    other = table := by
  cases h with
  | own hown hfull =>
      cases hother with
      | own hown' _ => rw [Option.some.inj (hown.symm.trans hown')]
      | project hown' hempty _ =>
          obtain rfl := Option.some.inj (hown.symm.trans hown')
          exact absurd hempty hfull
  | project hown hempty hproject =>
      cases hother with
      | own hown' hfull =>
          obtain rfl := Option.some.inj (hown.symm.trans hown')
          exact absurd hempty hfull
      | project _ _ hproject' => rw [Option.some.inj (hproject.symm.trans hproject')]

/-! ## The layers -/

theorem override_eq_ok_iff [Codecs] [Coercion] :
    base.override values = .ok settings ↔ base.update values = .ok settings :=
  mapError_eq_ok_iff

/-- What the files alone lead to. -/
theorem fromFiles_eq_ok_iff [Codecs] [Coercion] :
    fromFiles files none = .ok settings ↔ ∃ table, Selects files table ∧
    TakesDepth (memberOf maxDepthName table) defaultMaxDepth settings.maxDepth ∧
    TakesEncoding (memberOf textEncodingName table) defaultTextEncoding settings.textEncoding := by
  rw [fromFiles, bind_eq_ok_iff]
  simp only [override_eq_ok_iff, isPlain_default.update_eq_ok_iff, field?_namedValues]
  simp only [isKnown_default, implies_true, and_true]
  obtain ⟨table, found, hselects, hfound, hsame⟩ | ⟨hnone, e, he⟩ := selectTable_candidates files
  · simp only [hfound, Except.ok.injEq, exists_eq_left', hsame maxDepthName, hsame textEncodingName]
    constructor
    · exact fun hfields => ⟨table, hselects, hfields⟩
    · rintro ⟨other, hother, hfields⟩
      rwa [hselects.unique hother] at hfields
  · simp only [he, hnone]
    simp

/-- The limit that the environment gives: an integer in a variable that is set and not empty. -/
def depthInEnvironment? (environment : Environment) : Option Native :=
  ((setVariable? environment "VARCODEC_MAX_DEPTH").bind Numeral.intOfText?).map .int

def encodingInEnvironment? (environment : Environment) : Option Native :=
  (setVariable? environment "VARCODEC_TEXT_ENCODING").map .text

/-- The fields that a layer names. -/
def namedFields (depth encoding : Option Native) : List (String × Native) :=
  (depth.map (maxDepthName, ·)).toList ++ (encoding.map (textEncodingName, ·)).toList

theorem field?_namedFields (depth encoding : Option Native) :
    field? maxDepthName (namedFields depth encoding) = depth ∧
      field? textEncodingName (namedFields depth encoding) = encoding := by
  cases depth <;> cases encoding <;> exact ⟨rfl, rfl⟩

theorem variableNames : depthVariable defaultVariableStart = "VARCODEC_MAX_DEPTH" ∧
    encodingVariable defaultVariableStart = "VARCODEC_TEXT_ENCODING" := by
  decide

/-- Every limit in the environment is an integer. -/
def DepthIsInteger (environment : Environment) : Prop :=
  ∀ value, setVariable? environment "VARCODEC_MAX_DEPTH" = some value →
    (Numeral.intOfText? value).isSome = true

theorem fromEnvironment_of_integer [Codecs] [Coercion] (hinteger : DepthIsInteger environment)
    (base : Settings) :
    fromEnvironment environment defaultVariableStart base =
      base.override (namedFields (depthInEnvironment? environment)
        (encodingInEnvironment? environment)) := by
  rw [fromEnvironment, variableNames.1, variableNames.2, depthInEnvironment?,
    encodingInEnvironment?]
  cases hdepth : setVariable? environment "VARCODEC_MAX_DEPTH" with
  | none => cases setVariable? environment "VARCODEC_TEXT_ENCODING" <;> rfl
  | some value =>
      obtain ⟨n, hnumber⟩ := Option.isSome_iff_exists.mp (hinteger value hdepth)
      simp only [hnumber, Option.bind_some]
      cases setVariable? environment "VARCODEC_TEXT_ENCODING" <;> rfl

theorem fromEnvironment_of_not_integer [Codecs] [Coercion] (hinteger : ¬DepthIsInteger environment)
    (base : Settings) : ∃ value, fromEnvironment environment defaultVariableStart base =
      .error (.notAnInteger "VARCODEC_MAX_DEPTH" value) := by
  simp only [DepthIsInteger, not_forall, Option.not_isSome_iff_eq_none] at hinteger
  obtain ⟨value, hdepth, hnumber⟩ := hinteger
  refine ⟨value, ?_⟩
  rw [fromEnvironment, variableNames.1, hdepth]
  simp only [hnumber]
  rfl

/-- What the environment leads to on top of plain settings. -/
theorem IsPlain.fromEnvironment_eq_ok_iff [Codecs] [Coercion] (hbase : base.IsPlain) :
    fromEnvironment environment defaultVariableStart base = .ok settings ↔
      DepthIsInteger environment ∧
      TakesDepth (depthInEnvironment? environment) base.maxDepth settings.maxDepth ∧
      TakesEncoding (encodingInEnvironment? environment) base.textEncoding
        settings.textEncoding ∧
      ((depthInEnvironment? environment).isSome = true →
        encodingInEnvironment? environment = none → base.IsKnown) := by
  by_cases hinteger : DepthIsInteger environment
  · rw [fromEnvironment_of_integer hinteger, override_eq_ok_iff, hbase.update_eq_ok_iff,
      (field?_namedFields _ _).1, (field?_namedFields _ _).2]
    exact (and_iff_right hinteger).symm
  · obtain ⟨value, hrefused⟩ := fromEnvironment_of_not_integer hinteger base
    simp [hrefused, hinteger]

/-! ## Loading -/

/-- The first source that gives the limit: the environment, a table, or the default. -/
def depthGiven (environment : Environment) (table : Native) : Native :=
  ((depthInEnvironment? environment).or (memberOf maxDepthName table)).getD (.int defaultMaxDepth)

/-- The first source that gives the encoding: the environment, a table, or the default. -/
def encodingGiven (environment : Environment) (table : Native) : Native :=
  ((encodingInEnvironment? environment).or (memberOf textEncodingName table)).getD
    (.text defaultTextEncoding)

theorem textEncodingOf?_default [Codecs] :
    textEncodingOf? (.text defaultTextEncoding) = some defaultTextEncoding := by
  rw [isStored_default.textEncodingOf?_eq_some_iff]
  exact ⟨isKnown_default, rfl⟩

/-- What is taken on top of what was taken before comes from the first source that gives it. -/
theorem takesDepth_or [Coercion] {given below : Option Native} {before between after : Int}
    (hbelow : TakesDepth below before between) (hgiven : TakesDepth given between after) :
    maxDepthOf? ((given.or below).getD (.int before)) = some after := by
  cases given with
  | some x => exact hgiven
  | none =>
      obtain ⟨-, rfl⟩ := maxDepthOf?_int_iff.mp hgiven
      exact hbelow

theorem takesEncoding_or [Codecs] {given below : Option Native} {between after : String}
    (hbelow : TakesEncoding below defaultTextEncoding between)
    (hgiven : TakesEncoding given between after) :
    textEncodingOf? ((given.or below).getD (.text defaultTextEncoding)) = some after := by
  cases given with
  | some x => exact hgiven
  | none =>
      obtain rfl : after = between := hgiven
      cases below with
      | some x => exact hbelow
      | none =>
          obtain rfl : after = defaultTextEncoding := hbelow
          exact textEncodingOf?_default

theorem isPlain_of_fromFiles [Codecs] [Coercion] (hfiles : fromFiles files none = .ok settings) :
    settings.IsPlain := by
  obtain ⟨found, -, hoverride⟩ := bind_eq_ok_iff.mp hfiles
  exact isPlain_default.update (override_eq_ok_iff.mp hoverride)

theorem isPlain_of_load [Codecs] [Coercion] (hload : load environment files none = .ok settings) :
    settings.IsPlain := by
  obtain ⟨below, hfiles, henvironment⟩ := bind_eq_ok_iff.mp hload
  have hbelow := isPlain_of_fromFiles hfiles
  have hinteger := (hbelow.fromEnvironment_eq_ok_iff.mp henvironment).1
  rw [fromEnvironment_of_integer hinteger, override_eq_ok_iff] at henvironment
  exact hbelow.update henvironment

/-! ### Refusals -/

/-- What lies at a path is no reason for an error that loading is not prepared for: the path is not
too long, and the file holds no integer of too many digits. -/
def IsLegible : FileState → Prop
  | .missing | .directory => True
  | .file content => ∀ digits, Toml.read content ≠ .error (.overlongInteger digits)
  | .overlong => False

theorem override_failsOnly [Codecs] [Coercion] (base : Settings) (values : List (String × Native)) :
    FailsOnly (fun e => LoadError.isExpected e = true) (base.override values) := by
  intro e he
  obtain ⟨names, -, rfl⟩ := mapError_eq_error_iff.mp he
  rfl

theorem selectTable_failsOnly {paths : List String}
    (hlegible : ∀ path ∈ paths, IsLegible (files path)) (found : Native) :
    FailsOnly (fun e => LoadError.isExpected e = true) (selectTable files paths found) := by
  induction paths generalizing found with
  | nil => exact .ok found
  | cons path rest ih =>
      obtain ⟨hpath, hrest⟩ := List.forall_mem_cons.mp hlegible
      unfold selectTable
      split
      next => exact ih hrest found
      next => exact .error rfl
      next hoverlong =>
        rw [hoverlong] at hpath
        exact hpath.elim
      next content hcontent =>
        rw [hcontent] at hpath
        split
        next => exact .error rfl
        next digits hread => exact absurd hread (hpath digits)
        next =>
          dsimp only
          split
          next => exact .ok _
          next => exact ih hrest _

theorem load_failsOnly [Codecs] [Coercion]
    (hlegible : ∀ path ∈ candidates none, IsLegible (files path)) :
    FailsOnly (fun e => LoadError.isExpected e = true) (load environment files none) := by
  refine .bind (.bind (selectTable_failsOnly hlegible _) fun _ _ => override_failsOnly _ _) ?_
  intro below _
  by_cases hinteger : DepthIsInteger environment
  · rw [fromEnvironment_of_integer hinteger]
    exact override_failsOnly _ _
  · obtain ⟨value, hrefused⟩ := fromEnvironment_of_not_integer hinteger below
    rw [hrefused]
    exact .error rfl

/-! ### Single changes of plain settings -/

theorem IsPlain.override_depth [Codecs] [Coercion] (hplain : settings.IsPlain)
    (hknown : settings.IsKnown) {n : Int}
    (hx : maxDepthOf? x = some n) :
    settings.override [(maxDepthName, x)] = .ok { settings with maxDepth := n } := by
  rw [override_eq_ok_iff, hplain.update_eq_ok_iff]
  exact ⟨hx, rfl, fun _ _ => hknown⟩

theorem IsPlain.override_encoding [Codecs] [Coercion] (hplain : settings.IsPlain)
    (hx : textEncodingOf? x = some name) :
    settings.override [(textEncodingName, x)] = .ok { settings with textEncoding := name } := by
  rw [override_eq_ok_iff, hplain.update_eq_ok_iff]
  exact ⟨hplain.takesDepth_none_iff.mpr rfl, hx, fun h => by cases h⟩

/-! ### Valid sources -/

/-- Every source gives values that are taken, and the encoding in the table is known in lower case
too. -/
structure SourcesAreValid [Codecs] [Coercion] (environment : Environment) (table : Native) :
    Prop where
  environmentDepth : ∀ value, setVariable? environment "VARCODEC_MAX_DEPTH" = some value →
    ∃ n, Numeral.intOfText? value = some n ∧ 1 ≤ n ∧ n ≤ maxDepthLimit
  environmentEncoding : ∀ value, setVariable? environment "VARCODEC_TEXT_ENCODING" = some value →
    (textEncodingOf? (.text value)).isSome = true
  tableDepth : ∀ x, memberOf maxDepthName table = some x → (maxDepthOf? x).isSome = true
  tableEncoding : ∀ x, memberOf textEncodingName table = some x →
    (textEncodingOf? x).isSome = true ∧ KeepsWords x

theorem exists_takesDepth [Coercion] {before : Int} (given : Option Native)
    (hbefore : 1 ≤ before ∧ before ≤ maxDepthLimit)
    (hgiven : ∀ x, given = some x → (maxDepthOf? x).isSome = true) :
    ∃ after, TakesDepth given before after := by
  cases given with
  | some x => exact Option.isSome_iff_exists.mp (hgiven x rfl)
  | none => exact ⟨before, maxDepthOf?_int_iff.mpr ⟨hbefore, rfl⟩⟩

theorem exists_takesEncoding [Codecs] (given : Option Native) (before : String)
    (hgiven : ∀ x, given = some x → (textEncodingOf? x).isSome = true) :
    ∃ after, TakesEncoding given before after := by
  cases given with
  | some x => exact Option.isSome_iff_exists.mp (hgiven x rfl)
  | none => exact ⟨before, rfl⟩

namespace SourcesAreValid

theorem depthIsInteger [Codecs] [Coercion] (hvalid : SourcesAreValid environment table) :
    DepthIsInteger environment := by
  intro value hvalue
  obtain ⟨n, hnumber, -⟩ := hvalid.environmentDepth value hvalue
  rw [hnumber]
  rfl

theorem isSome_maxDepthOf? [Codecs] [Coercion] (hvalid : SourcesAreValid environment table)
    (hx : depthInEnvironment? environment = some x) : (maxDepthOf? x).isSome = true := by
  obtain ⟨n, hn, rfl⟩ := Option.map_eq_some_iff.mp hx
  obtain ⟨value, hvalue, hnumber⟩ := Option.bind_eq_some_iff.mp hn
  obtain ⟨m, hm, hrange⟩ := hvalid.environmentDepth value hvalue
  obtain rfl : m = n := Option.some.inj (hm.symm.trans hnumber)
  exact Option.isSome_of_mem (maxDepthOf?_int_iff.mpr ⟨hrange, rfl⟩)

theorem isSome_textEncodingOf? [Codecs] [Coercion] (hvalid : SourcesAreValid environment table)
    (hx : encodingInEnvironment? environment = some x) : (textEncodingOf? x).isSome = true := by
  obtain ⟨value, hvalue, rfl⟩ := Option.map_eq_some_iff.mp hx
  exact hvalid.environmentEncoding value hvalue

/-- The encoding that a valid table leads to is known. -/
theorem isSome_find? [Codecs] [Coercion] (hvalid : SourcesAreValid environment table)
    (hencoding : TakesEncoding (memberOf textEncodingName table) defaultTextEncoding name) :
    (Codecs.find? name).isSome = true := by
  cases hmember : memberOf textEncodingName table with
  | some x =>
      rw [hmember] at hencoding
      exact isSome_find?_of_keepsWords hencoding (hvalid.tableEncoding x hmember).2
  | none =>
      rw [hmember] at hencoding
      obtain rfl : name = defaultTextEncoding := hencoding
      exact isKnown_default

theorem exists_load [Codecs] [Coercion] (hvalid : SourcesAreValid environment table)
    (hselects : Selects files table) : ∃ settings, load environment files none = .ok settings := by
  have hdefault : 1 ≤ defaultMaxDepth ∧ defaultMaxDepth ≤ maxDepthLimit := by decide
  obtain ⟨depth, hdepth⟩ := exists_takesDepth _ hdefault hvalid.tableDepth
  obtain ⟨encoding, hencoding⟩ := exists_takesEncoding _ defaultTextEncoding
    (fun x hx => (hvalid.tableEncoding x hx).1)
  have hfiles : fromFiles files none = .ok { maxDepth := depth, textEncoding := encoding } :=
    fromFiles_eq_ok_iff.mpr ⟨table, hselects, hdepth, hencoding⟩
  have hplain := isPlain_of_fromFiles hfiles
  -- The encoding of the files has to be known, for a limit of the environment checks it again.
  have hknown : IsKnown { maxDepth := depth, textEncoding := encoding } :=
    hvalid.isSome_find? hencoding
  obtain ⟨top, htop⟩ := exists_takesDepth (depthInEnvironment? environment) hplain.checked
    (fun _ hx => hvalid.isSome_maxDepthOf? hx)
  obtain ⟨last, hlast⟩ := exists_takesEncoding (encodingInEnvironment? environment) encoding
    (fun _ hx => hvalid.isSome_textEncodingOf? hx)
  refine ⟨{ maxDepth := top, textEncoding := last }, bind_eq_ok_iff.mpr ⟨_, hfiles, ?_⟩⟩
  exact hplain.fromEnvironment_eq_ok_iff.mpr
    ⟨hvalid.depthIsInteger, htop, hlast, fun _ _ => hknown⟩

end SourcesAreValid

/-- Loading is refused with an error that it is prepared for, or each setting comes from the first
source that gives it, in the form in which settings are stored. The encoding is known unless the
two letters lead astray, and then both settings can be changed one by one. Valid sources are not
refused. -/
theorem load_takes_first_source [Codecs] [Coercion] (environment : Environment) (files : Files) :
    ((∀ path ∈ candidates none, IsLegible (files path)) →
      ∀ e, load environment files none = .error e → e.isExpected = true) ∧
    (∀ settings, load environment files none = .ok settings →
      ∃ table, Selects files table ∧ DepthIsInteger environment ∧
        maxDepthOf? (depthGiven environment table) = some settings.maxDepth ∧
        textEncodingOf? (encodingGiven environment table) = some settings.textEncoding ∧
        1 ≤ settings.maxDepth ∧ settings.maxDepth ≤ 4096 ∧
        Text.trim settings.textEncoding = settings.textEncoding ∧
        Text.lower settings.textEncoding = settings.textEncoding ∧
        (KeepsWords (encodingGiven environment table) → settings.IsKnown) ∧
        (settings.IsKnown → ∀ x n, maxDepthOf? x = some n →
          settings.override [(maxDepthName, x)] = .ok { settings with maxDepth := n }) ∧
        ∀ x name, textEncodingOf? x = some name →
          settings.override [(textEncodingName, x)] = .ok { settings with textEncoding := name }) ∧
    ∀ table, Selects files table → SourcesAreValid environment table →
      ∃ settings, load environment files none = .ok settings := by
  refine ⟨load_failsOnly, fun settings hload => ?_,
    fun table hselects hvalid => hvalid.exists_load hselects⟩
  have hplain := isPlain_of_load hload
  obtain ⟨below, hfiles, henvironment⟩ := bind_eq_ok_iff.mp hload
  obtain ⟨table, hselects, hdepthBelow, hencodingBelow⟩ := fromFiles_eq_ok_iff.mp hfiles
  obtain ⟨hinteger, hdepth, hencoding, -⟩ :=
    (isPlain_of_fromFiles hfiles).fromEnvironment_eq_ok_iff.mp henvironment
  have hgiven : textEncodingOf? (encodingGiven environment table) = some settings.textEncoding :=
    takesEncoding_or hencodingBelow hencoding
  exact ⟨table, hselects, hinteger, takesDepth_or hdepthBelow hdepth, hgiven, hplain.checked.1,
    hplain.checked.2, hplain.stored.trimmed, hplain.stored.lowered,
    isSome_find?_of_keepsWords hgiven, fun hknown _ _ hx => hplain.override_depth hknown hx,
    fun _ _ hx => hplain.override_encoding hx⟩

section

open scoped Standard

/-- The limit comes from the environment and the encoding from a file, each by itself. A limit that
is no number is refused. -/
theorem load_takes_first_source_mixed :
    ∃ environment files table, environment = [("VARCODEC_MAX_DEPTH", "7")] ∧
      files ownFile = .file "text_encoding = \x27ASCII\x27" ∧
      table = .map [(.text "text_encoding", .text "ASCII")] ∧
      Selects files table ∧ SourcesAreValid environment table ∧
      load environment files none = .ok { maxDepth := 7, textEncoding := "ascii" } ∧
      (∀ path ∈ candidates none, IsLegible (files path)) ∧
      load [("VARCODEC_MAX_DEPTH", "x")] files none =
        .error (.notAnInteger "VARCODEC_MAX_DEPTH" "x") ∧
      (LoadError.notAnInteger "VARCODEC_MAX_DEPTH" "x").isExpected = true := by
  let environment : Environment := [("VARCODEC_MAX_DEPTH", "7")]
  let files : Files := fun path =>
    if path = ownFile then .file "text_encoding = \x27ASCII\x27" else .missing
  let table : Native := .map [(.text "text_encoding", .text "ASCII")]
  let own : Toml.Table := [(.text "text_encoding", .text "ASCII")]
  have hread : contentOf? (files ownFile) = some own := by cbv
  have hfull : codecTable own ≠ [] := by decide
  have hselects : Selects files table := Selects.own hread hfull
  have hencoding : textEncodingOf? (.text "ASCII") = some "ascii" :=
    textEncodingOf?_eq_some_iff.mpr ⟨"ASCII", rfl, by decide +kernel, by decide +kernel,
      by decide +kernel, by decide +kernel⟩
  have hdepthSet : setVariable? environment "VARCODEC_MAX_DEPTH" = some "7" := by decide
  have hencodingSet : setVariable? environment "VARCODEC_TEXT_ENCODING" = none := by decide
  have hdepthMember : memberOf maxDepthName table = none := by rfl
  have hencodingMember : memberOf textEncodingName table = some (.text "ASCII") := by rfl
  have hnumber : Numeral.intOfText? "7" = some 7 := by rfl
  have hvalid : SourcesAreValid environment table := by
    refine ⟨?_, ?_, ?_, ?_⟩
    · rintro value hvalue
      obtain rfl := Option.some.inj (hdepthSet.symm.trans hvalue)
      exact ⟨7, hnumber, by decide, by decide⟩
    · simp [hencodingSet]
    · simp [hdepthMember]
    · intro x hx
      obtain rfl := Option.some.inj (hencodingMember.symm.trans hx)
      refine ⟨by rw [hencoding]; rfl, ?_⟩
      rintro value ⟨⟩
      exact ⟨by decide, by decide⟩
  obtain ⟨settings, hload⟩ := (load_takes_first_source environment files).2.2 table hselects hvalid
  obtain ⟨other, hother, -, hdepthGiven, hencodingGiven, -⟩ :=
    (load_takes_first_source environment files).2.1 settings hload
  obtain rfl := hselects.unique hother
  have hsettings : settings = { maxDepth := 7, textEncoding := "ascii" } := by
    rw [depthGiven, depthInEnvironment?, hdepthSet, Option.bind_some, hnumber] at hdepthGiven
    rw [encodingGiven, encodingInEnvironment?, hencodingSet, hencodingMember] at hencodingGiven
    exact eq_of_fields (maxDepthOf?_int_iff.mp hdepthGiven).2
      (Option.some.inj (hencodingGiven.symm.trans hencoding))
  have hlegible : ∀ path ∈ candidates none, IsLegible (files path) := by
    intro path _
    by_cases hpath : path = ownFile
    · have htable : Toml.read "text_encoding = \x27ASCII\x27" = .ok own := by cbv
      simp [files, hpath, IsLegible, htable]
    · simp [files, hpath, IsLegible]
  have hrefused : load [("VARCODEC_MAX_DEPTH", "x")] files none =
      .error (.notAnInteger "VARCODEC_MAX_DEPTH" "x") := by
    have hfiles : fromFiles files none = .ok { textEncoding := "ascii" } :=
      fromFiles_eq_ok_iff.mpr ⟨_, hselects, maxDepthOf?_int_iff.mpr ⟨by decide, rfl⟩, hencoding⟩
    rw [load, hfiles]
    rfl
  exact ⟨environment, files, _, rfl, rfl, rfl, hselects, hvalid, hsettings ▸ hload, hlegible,
    hrefused, (load_takes_first_source _ files).1 hlegible _ hrefused⟩

/-- A dotted capital letter does not matter in the name of an encoding, but what it becomes in lower
case does. -/
theorem load_dotted_name :
    load [("VARCODEC_TEXT_ENCODING", "UTF-8\u0130")] (fun _ => .missing) none =
      .ok { textEncoding := "utf-8i\u0307" } := by
  have hname : textEncodingOf? (.text "UTF-8\u0130") = some "utf-8i\u0307" := by
    have htrim : Text.trim "UTF-8\u0130" = "UTF-8\u0130" := by decide +kernel
    have hknown : (Codecs.find? "UTF-8\u0130").isSome = true := by decide +kernel
    have hlower : Text.lower "UTF-8\u0130" = "utf-8i\u0307" := by decide +kernel
    simp [textEncodingOf?, htrim, hknown, hlower]
  have hupdate : update {} [(textEncodingName, .text "UTF-8\u0130")] =
      .ok { textEncoding := "utf-8i\u0307" } := by
    rw [update, if_pos (by rfl)]
    dsimp only [field?, textEncodingName, maxDepthName]
    simp [hname]
    rfl
  have hload : load [("VARCODEC_TEXT_ENCODING", "UTF-8\u0130")] (fun _ => .missing) none =
      (update {} [(textEncodingName, .text "UTF-8\u0130")]).mapError .invalid := by
    rfl
  rw [hload, hupdate]
  rfl

/-- A loaded encoding that is not known stands in the way of a change of the limit. -/
theorem load_unknown_encoding :
    ∃ settings, load [("VARCODEC_TEXT_ENCODING", "UTF-8\u0130")] (fun _ => .missing) none =
        .ok settings ∧ settings.textEncoding = "utf-8i\u0307" ∧ ¬settings.IsKnown ∧
      maxDepthOf? (.int 3) = some 3 ∧
      settings.override [(maxDepthName, .int 3)] = .error (.invalid [textEncodingName]) := by
  have hunknown : (Codecs.find? "utf-8i\u0307").isSome = false := by decide +kernel
  have htrim : Text.trim "utf-8i\u0307" = "utf-8i\u0307" := by decide +kernel
  have hdepth : maxDepthOf? (.int 3) = some 3 := by decide
  refine ⟨_, load_dotted_name, rfl, by simp [IsKnown, hunknown], hdepth, ?_⟩
  have hrefused : textEncodingOf? (.text "utf-8i\u0307") = none := by
    simp [textEncodingOf?, htrim, hunknown]
  rw [override, Settings.update, if_pos (by rfl)]
  simp [field?, maxDepthName, textEncodingName, hdepth, hrefused]
  rfl

end

end TypedVariant.Settings
