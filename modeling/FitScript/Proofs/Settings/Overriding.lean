import FitScript.Proofs.Cli.Reports
import FitScript.Proofs.Json.Overriding

/-!
# Settings override what they name

A settings file needs to name only what differs from the defaults.

* `Convention.slots`, `ScriptOptions.slots`, `Settings.slots`: how settings are written. Each field,
  and each of the two parts as a whole, may be left out where it is the default.
* `Settings.decoder_of_overrides`: what is written in this way is read as the settings.
* `Settings.AddsStray`: an object with one more member, at the top or in one of the two parts.
* `Settings.ofJson_overrides`: written settings are read back from every text, with a stray member
  they are refused, and no run that goes on with settings blames them later.
-/

namespace FitScript

open Json Json.Record Json.Value Outcome

/-! ## Writing -/

/-- The fields of a convention. -/
def Convention.slots (c : Convention) : List Slot :=
  [.exactly "termSeparator" (.text c.termSeparator) (c.termSeparator = default.termSeparator),
   .exactly "interactionJoiner" (.text c.interactionJoiner)
     (c.interactionJoiner = default.interactionJoiner)]

/-- The fields of script options. -/
def ScriptOptions.slots (o : ScriptOptions) : List Slot :=
  [.exactly "dataVariable" (.text o.dataVariable) (o.dataVariable = default.dataVariable),
   .exactly "modelVariable" (.text o.modelVariable) (o.modelVariable = default.modelVariable),
   .exactly "placeholder" (.text o.placeholder) (o.placeholder = default.placeholder),
   .exactly "fileName" (.text o.fileName) (o.fileName = default.fileName),
   .exactly "basePackages" (.texts o.basePackages) (o.basePackages = default.basePackages)]

/-- The two parts of settings, each an object of its own. -/
def Settings.slots (settings : Settings) : List Slot :=
  [⟨"formula", Overrides settings.formula.slots, settings.formula = .default⟩,
   ⟨"generator", Overrides settings.generator.slots, settings.generator = .default⟩]

/-! ## Reading -/

theorem Convention.decoder_of_overrides {c : Convention} {v : Value}
    (h : Overrides c.slots v) : record.decoder v.tree = .ok c := by
  refine Record.decoder_of_overrides ?_ (by simp [slots, Slot.exactly])
    (by simp [record, Field.of]) orderFree_decoder h
  refine .exactly rfl (Decoder.text_text _) rfl ?_
  exact .exactly rfl (Decoder.text_text _) rfl (.nil _)

theorem ScriptOptions.decoder_of_overrides {o : ScriptOptions} {v : Value}
    (h : Overrides o.slots v) : record.decoder v.tree = .ok o := by
  refine Record.decoder_of_overrides ?_ (by simp [slots, Slot.exactly])
    (by simp [record, Field.of]) orderFree_decoder h
  refine .exactly rfl (Decoder.text_text _) rfl ?_
  refine .exactly rfl (Decoder.text_text _) rfl ?_
  refine .exactly rfl (Decoder.text_text _) rfl ?_
  refine .exactly rfl (Decoder.text_text _) rfl ?_
  exact .exactly rfl (Decoder.list_texts _) rfl (.nil _)

namespace Settings

theorem decoder_of_overrides {settings : Settings} {v : Value}
    (h : Overrides settings.slots v) : record.decoder v.tree = .ok settings := by
  refine Record.decoder_of_overrides ?_ (by simp [slots])
    (by simp [record, Field.of]) orderFree_decoder h
  refine .of (a := settings.formula) rfl (fun _ hv => Convention.decoder_of_overrides hv) ?_ ?_
  · intro hdefault
    rw [hdefault]
    rfl
  refine .of (a := settings.generator) rfl (fun _ hv => ScriptOptions.decoder_of_overrides hv) ?_
    (.nil _)
  intro hdefault
  rw [hdefault]
  rfl

/-! ## Nesting -/

theorem nested_of_overrides {settings : Settings} {v : Value} (h : Overrides settings.slots v) :
    v.Nested greatestDepth := by
  have htext (depth : Nat) (s : String) : ∀ w, w = Value.text s → w.Nested depth := by
    rintro _ rfl
    exact .scalar depth (.text s)
  have htexts (items : List String) : ∀ w, w = Value.texts items → w.Nested 1 := by
    rintro _ rfl
    exact (textual_texts 0 items).nested
  have hformula : ∀ w, Overrides settings.formula.slots w → w.Nested 2 := by
    refine fun w hw => hw.nested ?_
    simp only [Convention.slots, Slot.exactly, List.forall_mem_cons, List.not_mem_nil,
      false_imp_iff, implies_true, and_true]
    exact ⟨htext 1 _, htext 1 _⟩
  have hgenerator : ∀ w, Overrides settings.generator.slots w → w.Nested 2 := by
    refine fun w hw => hw.nested ?_
    simp only [ScriptOptions.slots, Slot.exactly, List.forall_mem_cons, List.not_mem_nil,
      false_imp_iff, implies_true, and_true]
    exact ⟨htext 1 _, htext 1 _, htext 1 _, htext 1 _, htexts _⟩
  have hsettings : v.Nested 3 := by
    refine h.nested ?_
    simp only [slots, List.forall_mem_cons, List.not_mem_nil, false_imp_iff, implies_true, and_true]
    exact ⟨hformula, hgenerator⟩
  exact hsettings.mono (by decide)

/-! ## Stray members -/

/-- An object of settings and the same with one more member that is not a field where it stands: at
    the top, in the convention, or in the script options. -/
inductive AddsStray : Value → Value → Prop where
  | settings {v w : Value} (h : AddsMember ["formula", "generator"] v w) : AddsStray v w
  | formula {v w : Value} (before after : List (String × Value))
      (h : AddsMember ["termSeparator", "interactionJoiner"] v w) :
      AddsStray (.object (before ++ ("formula", v) :: after))
        (.object (before ++ ("formula", w) :: after))
  | generator {v w : Value} (before after : List (String × Value))
      (h : AddsMember
        ["dataVariable", "modelVariable", "placeholder", "fileName", "basePackages"] v w) :
      AddsStray (.object (before ++ ("generator", v) :: after))
        (.object (before ++ ("generator", w) :: after))

/-- With such a member nothing is read. -/
theorem not_read_of_addsStray {v w : Value} (h : AddsStray v w) (settings : Settings) :
    record.decoder w.tree ≠ .ok settings := by
  cases h with
  | settings h => exact not_read_of_addsMember h
  | formula before after h =>
    exact not_read_of_addsMember_inside Convention.record rfl h before after
  | generator before after h =>
    exact not_read_of_addsMember_inside ScriptOptions.record rfl h before after

/-! ## Overriding -/

/-- **Settings override exactly what they name.** Settings that keep all rules are read back from
    every text of an object in which defaults are left out at will; with a member that is not a
    field the text is refused. Settings that are read have a convention that passes its check and
    options that every generator takes, so no run of the command line blames them later. -/
theorem ofJson_overrides :
    (∀ settings : Settings, settings.check = .ok () → ∀ v, Overrides settings.slots v →
      (∀ text : String, v.Spells text.toList → ofJson text = .ok settings) ∧
      ∀ w, AddsStray v w → ∀ text : String, w.Spells text.toList →
        ∃ message, ofJson text = .error (.document message)) ∧
    (∀ (text : String) (settings : Settings), ofJson text = .ok settings →
      settings.formula.check = .ok () ∧
        ∀ generator : Generator, generator.withOptions settings.generator =
          .ok { generator with options := settings.generator }) ∧
    ∀ (machine : Machine) (refusals : Refusals) (state after : MachineState)
      (filter : Cli.LogFilter) (generation : Cli.Generation) (report : Cli.Report),
      (Cli.generate (machine.hostWith refusals) filter generation).run state =
        (.error report, after) → report.SparesSettings generation.model := by
  refine ⟨?_, ?_, ?_⟩
  · intro settings hcheck v hv
    refine ⟨fun text hspells => ?_, fun w hw text hspells => ?_⟩
    · exact ofJson_eq_ok_iff.mpr
        ⟨hcheck, v, hspells, nested_of_overrides hv, decoder_of_overrides hv⟩
    · exact exists_ofJson_eq_error hspells (not_read_of_addsStray hw)
  · intro text settings hread
    obtain ⟨hformula, hgenerator⟩ := check_eq_ok_iff.mp (ofJson_eq_ok_iff.mp hread).1
    exact ⟨hformula, Cli.withOptions_of_check hgenerator⟩
  · intro machine refusals state after filter generation report hrun
    exact (Cli.ends_generate filter generation).report hrun

/-- A joiner and a file name are given, and then a language, which is not an option. A run without
    settings does not find its model. -/
theorem ofJson_overrides_joiner :
    let formula := Value.object [("interactionJoiner", .text ".")]
    let generator := Value.object [("fileName", .text "a.R")]
    let language := Value.object [("language", .text "R"), ("fileName", .text "a.R")]
    let text := (Value.object [("generator", generator), ("formula", formula)]).pretty
    let stray := (Value.object [("generator", language), ("formula", formula)]).pretty
    let settings : Settings :=
      ⟨⟨"+", "."⟩, ⟨"data", "model", "PATH", "a.R", ["tidyverse", "lme4"]⟩⟩
    let model := FilePath.ofString "m.json"
    let state : MachineState := ⟨.emptyAt [], "", ""⟩
    let report := Cli.Report.because ("reading model description " ++ model.display)
      (.file model .notFound)
    settings.check = .ok () ∧ ofJson text = .ok settings ∧
      (∃ message, ofJson stray = .error (.document message)) ∧ settings.formula.check = .ok () ∧
      (Cli.generate (Machine.host ⟨[], [], []⟩) []
        ⟨model, none, none, none, false, false⟩).run state = (.error report, state) ∧
      report.SparesSettings model := by
  intro formula generator language text stray settings model state report
  have hcheck : settings.check = .ok () := by decide +kernel
  have hformula : Overrides settings.formula.slots formula :=
    .object (.leave rfl (.write rfl .nil)) (.refl _)
  have hgenerator : Overrides settings.generator.slots generator :=
    .object (.leave rfl (.leave rfl (.leave rfl (.write rfl (.leave rfl .nil))))) (.refl _)
  have hsettings : Overrides settings.slots
      (.object [("generator", generator), ("formula", formula)]) :=
    .object (.write hformula (.write hgenerator .nil)) (.swap _ _ _)
  have hstray : AddsStray (.object [("generator", generator), ("formula", formula)])
      (.object [("generator", language), ("formula", formula)]) :=
    .generator [] _ ⟨[], [("fileName", .text "a.R")], "language", .text "R", by decide, rfl, rfl⟩
  have htextual (options : List (String × Value))
      (h : ∀ member ∈ options, member.2.Textual 125) :
      (Value.object [("generator", .object options), ("formula", formula)]).Textual
        greatestDepth := by
    have hjoiner : formula.Textual 126 := .object (List.forall_mem_singleton.mpr (.text _ _))
    exact .object (List.forall_mem_cons.mpr ⟨.object h, List.forall_mem_singleton.mpr hjoiner⟩)
  have htext := value?_read_pretty (htextual [("fileName", .text "a.R")]
    (List.forall_mem_singleton.mpr (.text _ _)))
  have hlanguage := value?_read_pretty
    (htextual [("language", .text "R"), ("fileName", .text "a.R")]
      (List.forall_mem_cons.mpr ⟨.text _ _, List.forall_mem_singleton.mpr (.text _ _)⟩))
  have hrun : (Cli.generate (Machine.host ⟨[], [], []⟩) []
      ⟨model, none, none, none, false, false⟩).run state = (.error report, state) := rfl
  obtain ⟨hoverrides, haccepted, hspares⟩ := ofJson_overrides
  obtain ⟨hread, hrefused⟩ := hoverrides settings hcheck _ hsettings
  have hok := hread text (value?_read_iff.mp htext).1
  exact ⟨hcheck, hok, hrefused _ hstray stray (value?_read_iff.mp hlanguage).1,
    (haccepted text settings hok).1, hrun, hspares _ _ _ _ _ _ _ hrun⟩

end Settings

end FitScript
