import FitScript.Proofs.Cli.Delivery
import FitScript.Proofs.Settings.Reading
import FitScript.Proofs.Validation.Presence

/-!
# Reports of a generation

What a run that generates a script can report, whatever its files hold.

* `Violation.message_ne_of_ofConvention`: no other violation is worded like one of the convention.
* `Steps.Ends`: what steps end in, whatever state the machine is in. `Steps.Ends.bind` and others:
  steps are judged by their parts.
* `Report.SparesSettings`: a report that does not blame the settings for what was accepted in them.
* `ends_generate`: a generation reports nothing else, since the settings that it goes on with keep
  all rules.
-/

namespace FitScript

open Outcome

/-! ## Wording -/

/-- Neither of two texts begins with the other. -/
def Text.OpenApart (s t : String) : Prop :=
  ¬ s.toList <+: t.toList ∧ ¬ t.toList <+: s.toList

instance (s t : String) : Decidable (Text.OpenApart s t) :=
  inferInstanceAs (Decidable (_ ∧ _))

/-- Texts that begin differently are different. -/
theorem Text.OpenApart.append_ne {s t : String} (h : Text.OpenApart s t) (u w : String) :
    s ++ u ≠ t ++ w := by
  intro heq
  have hlist : s.toList ++ u.toList = t.toList ++ w.toList := by
    rw [← String.toList_append, ← String.toList_append, heq]
  have hs : s.toList <+: t.toList ++ w.toList := hlist ▸ List.prefix_append _ _
  rcases List.prefix_or_prefix_of_prefix hs (List.prefix_append _ _) with hst | hts
  · exact h.1 hst
  · exact h.2 hts

/-- A violation of the convention. -/
inductive Violation.OfConvention : Violation → Prop where
  | separator (separator : String) : OfConvention (.invalidTermSeparator separator)
  | joiner (joiner : String) : OfConvention (.invalidInteractionJoiner joiner)

namespace Violation

variable {v v' : Violation} {d : Description} {c : Convention}

/-- How violations of the convention are worded at the start. -/
def conventionOpenings : List String :=
  ["Term", "Interaction joiner"]

theorem OfConvention.exists_opening (h : v.OfConvention) :
    ∃ s ∈ conventionOpenings, ∃ u, v.message = s ++ u := by
  rw [message.eq_def]
  cases h with
  | separator separator =>
    refine ⟨"Term", by simp [conventionOpenings], ?_⟩
    refine ⟨" separator must be '+' (optionally padded with spaces), got '" ++ separator ++ "'", ?_⟩
    simp only [toString, ← String.append_assoc]
    rfl
  | joiner joiner =>
    refine ⟨"Interaction joiner", by simp [conventionOpenings], ?_⟩
    refine ⟨" '" ++ joiner ++ "' does not produce syntactic R names", ?_⟩
    simp only [toString, ← String.append_assoc]
    rfl

/-- Other violations of a description are worded differently at the start. -/
theorem exists_other_opening (h : v.Present d c) (hv : ¬ v.OfConvention) :
    ∃ s u, (∀ t ∈ conventionOpenings, Text.OpenApart s t) ∧ v.message = s ++ u := by
  rw [message.eq_def]
  cases v
  case invalidTermSeparator separator => exact absurd (.separator separator) hv
  case invalidInteractionJoiner joiner => exact absurd (.joiner joiner) hv
  case unsupportedDataExtension => cases h
  case dataPathNotText => cases h
  case missingDependent | noIndependentVariables | missingFamily =>
    refine ⟨_, "", ?_, (String.append_empty).symm⟩
    decide +kernel
  all_goals
    simp only [toString, String.append_assoc]
    refine ⟨_, _, ?_, rfl⟩
    decide +kernel

/-- No other violation of a description is worded like one of the convention. -/
theorem message_ne_of_ofConvention (h : v.Present d c) (hv : ¬ v.OfConvention)
    (hv' : v'.OfConvention) : v.message ≠ v'.message := by
  obtain ⟨s, u, hapart, hs⟩ := exists_other_opening h hv
  obtain ⟨t, ht, w, hmessage⟩ := hv'.exists_opening
  rw [hs, hmessage]
  exact (hapart t ht).append_ne u w

end Violation

namespace Cli

variable {α β : Type} {machine : Machine} {refusals : Refusals} {P : α → Prop} {R : β → Prop}
  {Q : Report → Prop}

/-! ## Ends of steps -/

/-- Whatever state the machine is in, steps end in a value with one property or in a report with
    another. -/
def Steps.Ends (steps : Steps (StateM MachineState) α) (P : α → Prop) (Q : Report → Prop) : Prop :=
  ∀ state,
    match (steps.run state).1 with
    | .ok a => P a
    | .error report => Q report

namespace Steps.Ends

variable {steps : Steps (StateM MachineState) α} {next : α → Steps (StateM MachineState) β}

theorem pure {a : α} (h : P a) : (Pure.pure a : Steps (StateM MachineState) α).Ends P Q :=
  fun _ => h

theorem throw {report : Report} (h : Q report) :
    (MonadExcept.throw report : Steps (StateM MachineState) α).Ends P Q :=
  fun _ => h

/-- A step of the host makes no report. -/
theorem lift (m : StateM MachineState α) :
    (liftM m : Steps (StateM MachineState) α).Ends (fun _ => True) Q :=
  fun _ => trivial

/-- **What steps end in is judged by their parts.** -/
theorem bind (h : steps.Ends P Q) (hnext : ∀ a, P a → (next a).Ends R Q) :
    (steps >>= next).Ends R Q := by
  intro state
  have hend := h state
  cases hrun : steps.run state with
  | mk result after =>
    rw [hrun] at hend
    cases result with
    | ok a =>
      rw [run_bind_ok hrun]
      exact hnext a hend after
    | error report =>
      rw [run_bind_error hrun]
      exact hend

/-- The reports of steps. -/
theorem report (h : steps.Ends P Q) {state after : MachineState} {report : Report}
    (hrun : steps.run state = (.error report, after)) : Q report := by
  have hend := h state
  rw [hrun] at hend
  exact hend

end Steps.Ends

theorem ends_attempt {step : StateM MachineState (Except Failure α)} {summary : String}
    (hok : ∀ state a, (step state).1 = .ok a → P a)
    (herror : ∀ state failure, (step state).1 = .error failure → Q (.because summary failure)) :
    (attempt summary step).Ends P Q := by
  intro state
  cases hrun : step state with
  | mk result after =>
    rw [run_attempt hrun]
    cases result with
    | ok a => exact hok state a (by rw [hrun])
    | error failure => exact herror state failure (by rw [hrun])

theorem ends_tell (filter : LogFilter) (event : Event) :
    (tell (machine.hostWith refusals) filter event).Ends (fun _ => True) Q := by
  unfold tell
  split
  · exact .lift _
  · exact .pure trivial

theorem ends_forM_tell (filter : LogFilter) (events : List Event) :
    (events.forM (tell (machine.hostWith refusals) filter)).Ends (fun _ => True) Q := by
  induction events with
  | nil => exact .pure trivial
  | cons event rest ih => exact (ends_tell filter event).bind fun _ _ => ih

/-! ## Settings -/

theorem check_default : Settings.default.check = .ok () := by
  decide +kernel

/-- The settings that a run goes on with keep all rules. -/
theorem ends_settingsFor {config : Option FilePath}
    (h : ∀ path failure, Q (.because ("loading settings from " ++ FilePath.display path) failure)) :
    (settingsFor (machine.hostWith refusals) config).Ends (fun settings => settings.check = .ok ())
      Q := by
  cases config with
  | none => exact .pure check_default
  | some path =>
    refine ends_attempt (fun state settings hread => ?_) fun _ failure _ => h path failure
    rw [readFrom_eq] at hread
    obtain ⟨text, -, htext⟩ := bind_eq_ok_iff.mp hread
    exact (Settings.ofJson_eq_ok_iff.mp htext).1

/-! ## Reports -/

/-- A report that does not blame the settings for what was accepted in them: neither the options of
    the script, nor the convention when the model in a file is refused. -/
structure Report.SparesSettings (model : FilePath) (report : Report) : Prop where
  options : report.summary ≠ "invalid generator settings"
  convention : ∀ v : Violation, v.OfConvention →
    report ≠ .because ("invalid model in " ++ model.display) (.violation v)

namespace Report.SparesSettings

variable {model : FilePath} {report : Report}

theorem of_summary {s u : String} (hs : Text.OpenApart s "invalid")
    (h : report.summary = s ++ u) : report.SparesSettings model where
  options heq := by
    have hsettings : s ++ u = "invalid" ++ " generator settings" := h.symm.trans heq
    exact hs.append_ne _ _ hsettings
  convention v _ heq := by
    have hmodel : s ++ u = "invalid" ++ (" model in " ++ model.display) := by
      rw [← h, heq, ← String.append_assoc]
      rfl
    exact hs.append_ne _ _ hmodel

/-- A report without causes that tells something in several lines. -/
theorem of_lines {summary : String} (h : '\n' ∈ summary.toList) :
    SparesSettings model ⟨summary, []⟩ where
  options heq := by
    obtain rfl : summary = "invalid generator settings" := heq
    revert h
    decide +kernel
  convention v _ heq := by
    cases congrArg Report.causes heq

/-- The model in a file is refused for another violation than one of the convention. -/
theorem of_model {v : Violation} {d : Description} {c : Convention} (h : v.Present d c)
    (hv : ¬ v.OfConvention) :
    SparesSettings model (.because ("invalid model in " ++ model.display) (.violation v)) where
  options := by
    have hopen : Text.OpenApart "invalid model in " "invalid generator settings" := by
      decide +kernel
    intro heq
    exact hopen.append_ne model.display "" (heq.trans (String.append_empty).symm)
  convention v' hv' heq := by
    have hmessage : v.message = v'.message := (List.cons.inj (congrArg Report.causes heq)).1
    exact Violation.message_ne_of_ofConvention h hv hv' hmessage

end Report.SparesSettings

/-- A convention that passes its check is not what a description is refused for. -/
theorem not_ofConvention_of_check {v : Violation} {d : Description} {c : Convention}
    (hcheck : c.check = .ok ()) (h : v.Present d c) : ¬ v.OfConvention := by
  obtain ⟨hseparator, hjoiner⟩ := Convention.check_eq_ok_iff.mp hcheck
  rintro (separator | joiner)
  · obtain ⟨rfl, hne⟩ := h
    exact hne hseparator
  · obtain ⟨rfl, hne⟩ := h
    exact hne hjoiner

theorem withOptions_of_check {options : ScriptOptions} (h : options.check = .ok ())
    (generator : Generator) : generator.withOptions options = .ok { generator with options } := by
  rw [Generator.withOptions, h]
  rfl

/-! ## Parts of a generation -/

section

variable {model : FilePath}

/-- A step that is summarised in words of its own does not blame the settings. -/
theorem ends_attempt_apart {step : StateM MachineState (Except Failure α)} {summary s u : String}
    (hs : Text.OpenApart s "invalid") (h : summary = s ++ u) :
    (attempt summary step).Ends (fun _ => True) (Report.SparesSettings model) :=
  ends_attempt (fun _ _ _ => trivial) fun _ _ _ => .of_summary hs h

theorem ends_checkScript (filter : LogFilter) (script : FilePath) :
    (checkScript (machine.hostWith refusals) filter script).Ends (fun _ => True)
      (Report.SparesSettings model) := by
  unfold checkScript
  refine (Steps.Ends.lift _).bind fun program _ => ?_
  cases program with
  | none =>
    refine .throw (.of_summary (s := "Rscript")
      (u := " executable not found; install R or set R_HOME") (by decide +kernel) ?_)
    rfl
  | some program =>
    refine (ends_tell filter _).bind fun _ _ => ?_
    refine (ends_attempt_apart (s := "checking ") (by decide +kernel) rfl).bind fun answer _ => ?_
    refine (ends_tell filter _).bind fun _ _ => ?_
    split
    · exact ends_tell filter _
    · exact .throw (.of_lines (by simp))

theorem ends_verifyData (filter : LogFilter) (generator : Generator) :
    (verifyData (machine.hostWith refusals) filter generator).Ends (fun _ => True)
      (Report.SparesSettings model) := by
  unfold verifyData
  split
  · exact ends_tell filter _
  · refine (ends_attempt_apart (s := "reading") (u := " data header") (by decide +kernel) rfl).bind
      fun columns _ => ?_
    refine (ends_tell filter _).bind fun _ _ => ?_
    split
    · exact .pure trivial
    · exact ends_tell filter _

/-- The convention and the options were checked with the settings. -/
theorem ends_generatorFor (generation : Generation) :
    (generatorFor (machine.hostWith refusals) generation).Ends (fun _ => True)
      (Report.SparesSettings generation.model) := by
  unfold generatorFor
  refine (ends_settingsFor fun path failure => ?_).bind fun settings hcheck => ?_
  · exact .of_summary (s := "loading settings from ") (by decide +kernel) rfl
  obtain ⟨hconvention, hoptions⟩ := Settings.check_eq_ok_iff.mp hcheck
  refine (ends_attempt_apart (s := "reading model description ") (by decide +kernel) rfl).bind
    fun description _ => ?_
  -- a model may be refused, but not for a convention that passed its own check
  have hmodel : (attempt ("invalid model in " ++ generation.model.display)
      (pure ((Model.ofDescription description settings.formula).mapError .violation)) :
        Steps (StateM MachineState) Model).Ends (fun _ => True)
          (Report.SparesSettings generation.model) := by
    refine ends_attempt (fun _ _ _ => trivial) fun _ failure h => ?_
    obtain ⟨v, hv, rfl⟩ := mapError_eq_error_iff.mp h
    obtain ⟨k, hk⟩ := Validation.ofDescription_eq_error_iff.mp hv
    exact .of_model hk.present (not_ofConvention_of_check hconvention hk.present)
  refine hmodel.bind fun model _ => ?_
  refine (ends_attempt_apart (s := "unsupported") (u := " data file") (by decide +kernel) rfl).bind
    fun generator _ => ?_
  refine ends_attempt (fun _ _ _ => trivial) fun _ failure h => ?_
  rw [withOptions_of_check hoptions] at h
  cases h

theorem ends_deliver (filter : LogFilter) (generation : Generation) (generator : Generator) :
    (deliver (machine.hostWith refusals) filter generation generator).Ends (fun _ => True)
      (Report.SparesSettings model) := by
  unfold deliver
  split
  · refine (ends_attempt_apart (s := "generating") (u := " script") (by decide +kernel) rfl).bind
      fun script _ => ?_
    exact .lift _
  · refine (ends_attempt_apart (s := "writing script into ") (by decide +kernel) rfl).bind
      fun path _ => ?_
    refine (ends_tell filter _).bind fun _ _ => ?_
    refine (Steps.Ends.lift _).bind fun _ _ => ?_
    split
    · exact ends_checkScript filter _
    · exact .pure trivial

theorem ends_prepare (filter : LogFilter) (generation : Generation) :
    (prepare (machine.hostWith refusals) filter generation).Ends (fun _ => True)
      (Report.SparesSettings generation.model) := by
  unfold prepare
  refine (ends_generatorFor generation).bind fun generator _ => ?_
  refine Steps.Ends.bind (P := fun _ => True) ?_ fun _ _ => ?_
  · split
    · exact ends_verifyData filter generator
    · exact .pure trivial
  · exact (ends_forM_tell filter _).bind fun _ _ => .pure trivial

/-- **A generation does not blame the settings for what was accepted in them.** -/
theorem ends_generate (filter : LogFilter) (generation : Generation) :
    (generate (machine.hostWith refusals) filter generation).Ends (fun _ => True)
      (Report.SparesSettings generation.model) :=
  (ends_prepare filter generation).bind fun generator _ => ends_deliver filter generation generator

end

end Cli

end FitScript
