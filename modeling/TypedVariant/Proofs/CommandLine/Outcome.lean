import TypedVariant.CommandLine.Report
import TypedVariant.Proofs.Json.Reading
import TypedVariant.Proofs.Json.Writing
import TypedVariant.Proofs.Pack.Agreement
import TypedVariant.Proofs.Settings.Loading

/-!
# How runs that pack a value end

The program packs a value that is given as JSON, and prints the variant or what it
unpacks to again. Once the arguments are understood and the settings are loaded, such
a run ends in one of three ways: the value is no JSON, packing refuses it, or there is
an answer. What comes after packing does not fail, so the exit says whether packing
did. The program is not prepared for an encoding that is unknown or no encoding of text
when it is used, which is then the end of the run. Which encodings there are and what
counts as an integer is left open.
-/

namespace TypedVariant

namespace CommandLine

variable {environment : Settings.Environment} {files : Settings.Files} {i : Invocation}
  {settings : Settings} {signature text : String} {x : Native} {v : Variant}

/-- A request packs the value of a text against a signature. -/
inductive Request.Packs (signature text : String) : Request → Prop
  | pack (annotate : Bool) : Packs signature text (.pack signature (.value text) annotate)
  | roundtrip (recursive : Bool) :
      Packs signature text (.roundtrip signature (.value text) recursive)

/-- A text is what a request prints for the variant that it has packed. -/
def Request.Shows (settings : Settings) (v : Variant) (result : String) : Request → Prop
  | parse _ => False
  | pack _ _ annotate => v.display annotate = .ok result
  | roundtrip _ _ recursive =>
      ∃ x, v.unpack settings (.ofFlags true recursive) = .ok x ∧ Json.write x = .ok result

theorem isChecked_of_settings [Codecs] [Coercion]
    (hsettings : i.settings environment files = .ok settings) :
    settings.IsChecked := by
  obtain ⟨path, -, hloaded⟩ := bind_eq_ok_iff.mp hsettings
  obtain ⟨loaded, hload, hchanged⟩ := bind_eq_ok_iff.mp hloaded
  have hchecked := Settings.isChecked_of_load (mapError_eq_ok_iff.mp hload)
  split at hchanged
  next =>
    obtain rfl := Except.ok.inj hchanged
    exact hchecked
  next => exact hchecked.override (mapError_eq_ok_iff.mp hchanged)

/-! ## Answers -/

theorem exists_shows (hrequest : i.request.Packs signature text) {type : SigType}
    (htyped : HasType v type)
    (hunpack : ∀ opening, v.unpack settings opening = .ok (v.unpacked opening)) :
    ∃ result, i.request.Shows settings v result := by
  obtain ⟨request, config, maxDepth⟩ := i
  cases hrequest with
  | pack annotate => exact ⟨_, Variant.display_eq_printed htyped annotate⟩
  | roundtrip recursive =>
      have hwritable : Json.IsWritable (v.unpacked (.ofFlags true recursive)) :=
        Variant.isWritable_unpacked htyped
      obtain ⟨result, hwrite⟩ := hwritable.exists_write
      exact ⟨result, _, hunpack _, hwrite⟩

section

variable [Codecs] [Coercion] (hrequest : i.request.Packs signature text)
  (hsettings : i.settings environment files = .ok settings)
include hrequest hsettings

theorem answer_of_notJson {fault : Json.Fault} (hread : Json.read text = .error fault) :
    i.answer environment files = .ofFailure (.notJson (fault.message text)) := by
  obtain ⟨request, config, maxDepth⟩ := i
  cases hrequest with
  | pack => simp [Invocation.answer, readValue, hread, Except.mapError]
  | roundtrip => simp [Invocation.answer, readValue, hread, hsettings, Except.mapError]

/-- What is JSON is packed, and the request goes on with the variant. -/
theorem answer_of_json (hread : Json.read text = .ok x) :
    ∃ next, i.answer environment files = .ofPacked settings signature x next ∧
      ∀ v result, i.request.Shows settings v result → next v = .ok result := by
  obtain ⟨request, config, maxDepth⟩ := i
  cases hrequest with
  | pack annotate =>
      refine ⟨fun v => .ok (v.printed annotate), ?_, ?_⟩
      · simp [Invocation.answer, readValue, hread, hsettings, Except.mapError]
      · intro v result hshows
        simp only [Request.Shows, Variant.display] at hshows
        split at hshows
        next => cases hshows
        next => exact congrArg Except.ok (Except.ok.inj hshows)
  | roundtrip recursive =>
      refine ⟨unpackedJson settings recursive, ?_, ?_⟩
      · simp [Invocation.answer, readValue, hread, hsettings, Except.mapError]
      · rintro v result ⟨y, hunpack, hwrite⟩
        rw [unpackedJson, hunpack]
        exact mapError_eq_ok_iff.mpr hwrite

theorem answer_of_refused {e : Error} (hread : Json.read text = .ok x)
    (hpack : pack settings (.text signature) x = .error e) :
    i.answer environment files = .ofFailure (.codec e) := by
  obtain ⟨next, hanswer, -⟩ := answer_of_json hrequest hsettings hread
  have htext : packText settings signature x = .error e := hpack
  rw [hanswer, Answer.ofPacked, htext]

/-- A packed variant is printed, whether it is unpacked again or not. -/
theorem answer_of_packed (hread : Json.read text = .ok x)
    (hpack : pack settings (.text signature) x = .ok v) :
    ∃ result, i.request.Shows settings v result ∧
      i.answer environment files = ⟨[packedNote signature], .ok result⟩ := by
  obtain ⟨next, hanswer, hnext⟩ := answer_of_json hrequest hsettings hread
  have hdata := Json.isData_of_read hread
  obtain ⟨type, htyped⟩ := Variant.isTyped_of_pack hdata.isTyped hpack
  -- JSON holds no variants, so what fitted the limit when it was packed fits it again.
  have hunpack (opening : Opening) : v.unpack settings opening = .ok (v.unpacked opening) :=
    unpack_of_pack (isChecked_of_settings hsettings) hdata.isTyped
      (fun _ => hdata.hasNoVariants) hpack
  obtain ⟨result, hshows⟩ := exists_shows hrequest htyped hunpack
  have htext : packText settings signature x = .ok v := hpack
  refine ⟨result, hshows, ?_⟩
  rw [hanswer, Answer.ofPacked, htext, ← hnext v result hshows]

end

/-! ## Exits -/

/-- The errors of packing data are those that callers are prepared for. -/
theorem isRecoverable_of_refused [Codecs] {e : Error} (hencoding : settings.HasTextEncoding)
    (hread : Json.read text = .ok x) (hpack : pack settings (.text signature) x = .error e) :
    e.kind.isRecoverable = true := by
  have hpacking := Pack.pack_failsOnly hencoding (.text signature) x e hpack
  exact hpacking.isRecoverable_or.resolve_right
    (fun hlong => (Json.isData_of_read hread).not_holdsLongRange hlong.2)

/-- A failure is all that is reported, as one that the program is prepared for or as another. -/
theorem report_of_failure [Codecs] [Coercion] {notes : Bool} {cause : Failure}
    (hanswer : i.answer environment files = .ofFailure cause) :
    i.report environment files notes =
      ⟨[], if cause.isExpected then .failed cause else .broken cause⟩ := by
  rw [Invocation.report, hanswer]
  simp [Answer.ofFailure]

/-- How a run ends whose value is refused by packing. -/
def Outcome.ofRefused (e : Error) : Outcome :=
  if e.kind.isRecoverable then .failed (.codec e) else .broken (.codec e)

theorem Outcome.ofRefused_of_recoverable {e : Error} (hkind : e.kind.isRecoverable = true) :
    ofRefused e = .failed (.codec e) := by
  rw [ofRefused, if_pos hkind]

theorem Outcome.ofRefused_of_not_recoverable {e : Error} (hkind : e.kind.isRecoverable = false) :
    ofRefused e = .broken (.codec e) := by
  rw [ofRefused, hkind]
  rfl

/-- The exit with the code two tells the errors apart that the program is prepared for. -/
theorem Outcome.exit_ofRefused (e : Error) : (ofRefused e).exit ≠ .code 0 ∧
    ((ofRefused e).exit = .code 2 ↔ e.kind.isRecoverable = true) := by
  cases hkind : e.kind.isRecoverable with
  | true => simp [ofRefused_of_recoverable hkind, exit]
  | false => simp [ofRefused_of_not_recoverable hkind, exit]

theorem output_ofRefused (notes : List String) (e : Error) :
    (Report.mk notes (.ofRefused e)).output = "" := by
  unfold Outcome.ofRefused
  cases e.kind.isRecoverable <;> rfl

theorem report_of_refused [Codecs] [Coercion] {notes : Bool} {e : Error}
    (hrequest : i.request.Packs signature text)
    (hsettings : i.settings environment files = .ok settings) (hread : Json.read text = .ok x)
    (hpack : pack settings (.text signature) x = .error e) :
    i.report environment files notes = ⟨[], .ofRefused e⟩ :=
  report_of_failure (answer_of_refused hrequest hsettings hread hpack)

/-- Runs that pack a value end as packing does, if the value is JSON: with the code zero and one
result, or with the code two and the message of the error. Only an encoding that is not known, or is
no encoding of text, makes for errors that the program is not prepared for. -/
theorem exit_follows_packing [Codecs] [Coercion] {arguments : List String} {notes : Bool}
    {report : Report} (hinterpret : interpret arguments = .ok (notes, i))
    (hrequest : i.request.Packs signature text)
    (hsettings : i.settings environment files = .ok settings)
    (hreport : run environment files arguments = report) :
    (settings.HasTextEncoding → ∀ cause, report.outcome ≠ .broken cause) ∧
      (∀ fault, Json.read text = .error fault →
        report.outcome.exit = .message ("VALUE must be JSON: " ++ fault.message text) ∧
          report.output = "") ∧
      ∀ x, Json.read text = .ok x →
        (report.outcome.exit = .code 0 ↔ ∃ v, pack settings (.text signature) x = .ok v) ∧
        (report.outcome.exit = .code 2 ↔
          ∃ e, pack settings (.text signature) x = .error e ∧ e.kind.isRecoverable = true) ∧
        (∀ v, pack settings (.text signature) x = .ok v →
          ∃ result, i.request.Shows settings v result ∧ report.output = result ++ "\n" ∧
            report.diagnostics = report.noteLines) ∧
        ∀ e, pack settings (.text signature) x = .error e → report.output = "" ∧
          (e.kind.isRecoverable = true →
            report.diagnostics = "[ERROR] " ++ e.message ++ "\n") ∧
          (e.kind.isRecoverable = false →
            report.outcome = .broken (.codec e) ∧ ¬settings.HasTextEncoding) := by
  rw [run, hinterpret] at hreport
  subst hreport
  dsimp only
  cases hread : Json.read text with
  | error fault =>
      rw [report_of_failure (answer_of_notJson hrequest hsettings hread)]
      refine ⟨by simp [Failure.isExpected], ?_, by simp⟩
      rintro _ ⟨⟩
      exact ⟨rfl, rfl⟩
  | ok x =>
      cases hpack : pack settings (.text signature) x with
      | error e =>
          have hrecoverable (hencoding : settings.HasTextEncoding) :
              e.kind.isRecoverable = true := isRecoverable_of_refused hencoding hread hpack
          obtain ⟨hnotZero, htwo⟩ := Outcome.exit_ofRefused e
          rw [report_of_refused hrequest hsettings hread hpack]
          refine ⟨fun hencoding => ?_, by simp, ?_⟩
          · simp [Outcome.ofRefused_of_recoverable (hrecoverable hencoding)]
          rintro _ ⟨⟩
          rw [hpack]
          refine ⟨by simpa using hnotZero, by simpa using htwo, by simp, ?_⟩
          rintro _ ⟨⟩
          refine ⟨output_ofRefused _ _, fun hkind => ?_, fun hkind => ⟨?_, fun hencoding => ?_⟩⟩
          · rw [Outcome.ofRefused_of_recoverable hkind]
            rfl
          · exact Outcome.ofRefused_of_not_recoverable hkind
          · simp [hrecoverable hencoding] at hkind
      | ok v =>
          obtain ⟨result, hshows, hanswer⟩ := answer_of_packed hrequest hsettings hread hpack
          rw [Invocation.report, hanswer]
          refine ⟨by simp, by simp, ?_⟩
          rintro _ ⟨⟩
          rw [hpack]
          refine ⟨by simp [Outcome.exit], by simp [Outcome.exit], ?_, by simp⟩
          rintro _ ⟨⟩
          exact ⟨result, hshows, rfl, by simp [Report.diagnostics]⟩

section

open scoped Standard

/-- A list in a box is packed and unpacked again, through the boxes of its items. -/
theorem exit_follows_packing_boxes :
    ∃ i report, interpret ["roundtrip", "v", "[1]", "--recursive"] = .ok (false, i) ∧
      i.request.Packs "v" "[1]" ∧ i.settings [] (fun _ => .missing) = .ok {} ∧
      run [] (fun _ => .missing) ["roundtrip", "v", "[1]", "--recursive"] = report ∧
      Json.read "[1]" = .ok (.list [.int 1]) ∧ report.outcome.exit = .code 0 := by
  have hinterpret : interpret ["roundtrip", "v", "[1]", "--recursive"] =
      .ok (false, ⟨.roundtrip "v" (.value "[1]") true, none, none⟩) := by rfl
  have hsettings : Invocation.settings [] (fun _ => .missing)
      ⟨.roundtrip "v" (.value "[1]") true, none, none⟩ = .ok {} := by rfl
  have hread : Json.read "[1]" = .ok (.list [.int 1]) := by rfl
  have hitem : Pack.Packs {} 2 .variant (.int 1) (.box (.integer .int64 1)) :=
    .implied rfl (by decide) (.basic rfl rfl)
  have hitems : Pack.Packs {} 1 (.array .variant) (.list [.int 1])
      (.array "v" [.box (.integer .int64 1)]) :=
    .array [(_, _)] rfl rfl (by simpa using hitem)
  have hbox : Pack.Packs {} 0 .variant (.list [.int 1])
      (.box (.array "v" [.box (.integer .int64 1)])) :=
    .implied rfl (by decide) hitems
  have hparse : Signature.parse ({} : Settings).maxDepth "v" = .ok .variant := by rfl
  have hpack : pack {} (.text "v") (.list [.int 1]) =
      .ok (.box (.array "v" [.box (.integer .int64 1)])) :=
    packText_eq_ok_iff.mpr ⟨_, hparse, hbox⟩
  obtain ⟨-, -, hexit⟩ := exit_follows_packing hinterpret (.roundtrip true) hsettings rfl
  exact ⟨_, _, hinterpret, .roundtrip true, hsettings, rfl, hread,
    (hexit _ hread).1.mpr ⟨_, hpack⟩⟩

/-- The name of an encoding is known as it is given, and unknown in the lower case in which it is
stored. Packing text fails for it, and the program is not prepared for that. -/
theorem exit_unknown_encoding :
    ∃ environment i settings x e, environment = [("VARCODEC_TEXT_ENCODING", "UTF-8\u0130")] ∧
      interpret ["pack", "ay", "\"a\""] = .ok (false, i) ∧ i.request.Packs "ay" "\"a\"" ∧
      i.settings environment (fun _ => .missing) = .ok settings ∧
      Json.read "\"a\"" = .ok x ∧ pack settings (.text "ay") x = .error e ∧
      e.message = "unknown encoding: utf-8i\u0307" ∧
      (run environment (fun _ => .missing) ["pack", "ay", "\"a\""]).outcome =
        .broken (.codec e) := by
  have hinterpret : interpret ["pack", "ay", "\"a\""] =
      .ok (false, ⟨.pack "ay" (.value "\"a\"") false, none, none⟩) := by rfl
  have hsettings : Invocation.settings [("VARCODEC_TEXT_ENCODING", "UTF-8\u0130")]
      (fun _ => .missing) ⟨.pack "ay" (.value "\"a\"") false, none, none⟩ =
        .ok { textEncoding := "utf-8i\u0307" } := by
    simp [Invocation.settings, configPath, Settings.load_dotted_name, Except.mapError, bind,
      Except.bind, pure, Except.pure]
  have hread : Json.read "\"a\"" = .ok (.text "a") := by cbv
  have hpack : pack { textEncoding := "utf-8i\u0307" } (.text "ay") (.text "a") =
      .error (.unknownEncoding "utf-8i\u0307") := by
    have hparse : Signature.parse ({ textEncoding := "utf-8i\u0307" } : Settings).maxDepth "ay" =
        .ok (.array (.basic (.integer .byte))) := by rfl
    have hunknown : Codecs.find? "utf-8i\u0307" = none := by decide +kernel
    refine (packText_eq_packAs hparse _).trans ?_
    rw [Pack.packAs_array (by decide), Pack.packFlat?, byteBlob, encodeText, if_neg (by decide),
      hunknown]
    rfl
  refine ⟨_, _, _, _, _, rfl, hinterpret, .pack false, hsettings, hread, hpack, rfl, ?_⟩
  rw [run, hinterpret]
  dsimp only
  rw [Invocation.report, answer_of_refused (.pack false) hsettings hread hpack]
  rfl

end

end CommandLine

end TypedVariant
