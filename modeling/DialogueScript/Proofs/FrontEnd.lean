import DialogueScript.Document.Content
import DialogueScript.Proofs.Culprits
import DialogueScript.Proofs.Strictness
import DialogueScript.Proofs.TallTrees

/-!
# Three commands on one script

A script can be checked, drawn as a tree, or run.  Each of the commands reads the script by itself,
and only a run reads it under settings.

* `Fault.isEarly` — the code of a fault is one of reading, not of running;
* `Script.Refused` — a run reports such a fault; `Script.refused_iff` — so it does exactly when the
  script cannot be read;
* `Command.runFile_eq` — a run whose settings can be put together runs the script under them;
* `Command.perform_agrees` — **what a run reads can be checked, and drawn if it is not too high;
  where integers are allowed the three commands refuse the same scripts, and for the same reason**.
-/

namespace DialogueScript

/-- The code of the fault has a 0 or a 1 behind the letter: something is wrong with the text. -/
def Fault.isEarly (f : Fault) : Bool :=
  "E0".toList.isPrefixOf f.code.toList || "E1".toList.isPrefixOf f.code.toList

/-- These are the faults of scanning and of parsing. -/
theorem Fault.isEarly_eq (f : Fault) :
    f.isEarly = (f.kind == .lexical || f.kind == .parse) := by
  -- the code of a fault does not depend on what the fault shows
  cases f with
  | _ =>
    simp only [isEarly, code, kind]
    decide

namespace Script

open Program

variable {s : Script} {limits : Limits} {settings : Settings} {input : String} {fault : Fault}
  {span : Span}

theorem TextCulprit.isEarly (h : s.TextCulprit fault span) : fault.isEarly = true := by
  rw [Fault.isEarly_eq]
  cases h <;> rfl

theorem RunCulprit.isEarly (h : s.RunCulprit limits settings input fault span) :
    fault.isEarly = false := by
  rw [Fault.isEarly_eq]
  cases h with
  | operation hneeds hl hr hop => cases hop <;> rfl
  | _ => rfl

/-- A run of the script reports a fault of its text. -/
def Refused (s : Script) (limits : Limits) (settings : Settings) (input : String) : Prop :=
  ∃ o, (s.run limits settings input).1 = .ok o ∧ ∃ f ∈ o.failures, f.fault.isEarly = true

theorem isEarly_of_parse {f : Failure} (h : s.parse limits = .error f) :
    f.fault.isEarly = true := by
  obtain ⟨span, -, -, hculprit⟩ := textCulprit_of_parse h
  exact hculprit.isEarly

/-- **A run reports a fault of the text exactly when the script cannot be read.** -/
theorem refused_iff :
    s.Refused limits settings input ↔ ∃ f, (s.withSettings settings).parse limits = .error f := by
  constructor
  · rintro ⟨o, hrun, g, hg, hearly⟩
    rw [run] at hrun
    cases hp : (s.withSettings settings).parse limits with
    | error f => exact ⟨f, rfl⟩
    | ok p =>
      rw [hp] at hrun
      rcases mem_failures hrun hg with hnil | ⟨root, t, why, f, hexec, hwhy, hf, rfl⟩
      · cases hnil
      · obtain ⟨span, -, -, hculprit⟩ := runCulprit_of_execute hp hexec hwhy hf
        rw [f.fault_quoting, hculprit.isEarly] at hearly
        cases hearly
  · rintro ⟨f, hf⟩
    refine ⟨⟨false, [f]⟩, ?_, f, List.mem_singleton_self f, isEarly_of_parse hf⟩
    rw [run, hf]

/-- Settings that allow what the script allows change nothing. -/
theorem withSettings_eq (h : settings.integers = s.integers) : s.withSettings settings = s := by
  unfold withSettings
  rw [h]

/-- What is read under some settings is read where integers are allowed. -/
theorem parse_of_settings {p : Program} (h : (s.withSettings settings).parse limits = .ok p) :
    Script.parse { s with integers := true } limits = .ok p := by
  unfold withSettings at h
  cases hintegers : settings.integers with
  | true =>
    rw [hintegers] at h
    exact h
  | false =>
    rw [hintegers] at h
    exact parse_of_strict h

end Script

namespace Command

variable {limits : Limits} {read : String → Document} {look : Path → Entry} {vars : Variables}
  {input file text raw : String} {options : RunOptions} {settings : Settings}

/-- The summary of a check that has found failures. -/
def summaryText (file : String) (r : Report) : String :=
  (Json.object ([("file", .string file), ("statements", .number 0)] ++ r.entries)).text ++ "\n"

/-- **A run whose settings can be put together runs the script under them.**  What it reports before
that is reported only if events are to be. -/
theorem runFile_eq
    (h : Settings.resolve options.base read look (options.sources vars) = .ok settings)
    (verbose : Bool) (file text : String) : ∃ log, (verbose = false → log = "") ∧
      runFile limits read look vars input verbose options file text =
        (runUnder limits settings file text input verbose).after log := by
  unfold Settings.resolve Sources.layers at h
  unfold runFile
  dsimp only
  cases hfile : (options.sources vars).fileLayer read look with
  | error f =>
    rw [hfile] at h
    cases h
  | ok loaded =>
    rw [hfile] at h
    dsimp only [Except.map] at h
    dsimp only
    cases hlayers : options.base.withLayers
        ((loaded.map (·.2)).toList ++ (options.sources vars).openLayers) with
    | error f =>
      rw [hlayers] at h
      cases h
    | ok found =>
      rw [hlayers] at h
      cases h
      refine ⟨_, ?_, rfl⟩
      rintro rfl
      cases loaded <;> rfl

theorem withText_of_file (hfile : look (Path.ofText file) = .file raw)
    (go : String → Transcript) : withText look file go = go (Text.plainLineEnds raw) := by
  unfold withText
  dsimp only
  rw [hfile]

theorem check_of_ok {p : Program} (h : (scriptOf file text).parse limits = .ok p) (json : Bool) :
    (check limits json file text).ending = .code 0 := by
  unfold check
  rw [h]
  cases json <;> rfl

theorem check_of_error {f : Failure} (h : (scriptOf file text).parse limits = .error f)
    (json : Bool) :
    check limits json file text =
      if json then .ofCode 1 (summaryText file { diagnostics := [f.diagnostic] }) ""
      else .ofCode 1 "" (reportText { diagnostics := [f.diagnostic] }) := by
  unfold check
  rw [h]
  cases json <;> rfl

theorem drawTree_of_ok {p : Program} (h : (scriptOf file text).parse limits = .ok p) :
    (drawTree limits file text).ending =
      if p.height ≤ limits.height then .code 0 else .tooHigh := by
  unfold drawTree
  rw [h]
  cases p with
  | nil => rfl
  | cons stmt rest =>
    dsimp only
    unfold Program.drawing?
    by_cases hheight : Program.height (stmt :: rest) ≤ limits.height
    · rw [if_pos hheight, if_pos hheight]
      rfl
    · rw [if_neg hheight, if_neg hheight]

/-- A tree is drawn exactly if it is not too high. -/
theorem drawTree_eq_code_iff {p : Program} (h : (scriptOf file text).parse limits = .ok p) :
    (drawTree limits file text).ending = .code 0 ↔ p.height ≤ limits.height := by
  rw [drawTree_of_ok h]
  split <;> simp_all

theorem drawTree_of_error {f : Failure} (h : (scriptOf file text).parse limits = .error f) :
    drawTree limits file text = .ofCode 1 "" (failureText f) := by
  unfold drawTree
  rw [h]

/-- A check ends with the code for errors exactly if the script cannot be read. -/
theorem check_fails_iff (json : Bool) : (check limits json file text).ending = .code 1 ↔
    ∃ f, (scriptOf file text).parse limits = .error f := by
  cases hparse : (scriptOf file text).parse limits with
  | ok p =>
    rw [check_of_ok hparse]
    simp
  | error f =>
    rw [check_of_error hparse]
    cases json <;> simp [Transcript.ofCode]

/-- So does a drawing. -/
theorem drawTree_fails_iff : (drawTree limits file text).ending = .code 1 ↔
    ∃ f, (scriptOf file text).parse limits = .error f := by
  cases hparse : (scriptOf file text).parse limits with
  | ok p =>
    rw [drawTree_of_ok hparse]
    split <;> simp
  | error f =>
    rw [drawTree_of_error hparse]
    simp [Transcript.ofCode]

theorem runUnder_of_error {f : Failure}
    (h : ((scriptOf file text).withSettings settings).parse limits = .error f) (verbose : Bool) :
    runUnder limits settings file text input verbose =
      .ofCode 1 "" (reportText { diagnostics := [f.diagnostic] }) := by
  unfold runUnder Script.run
  rw [h]
  have hlog : sessionLog (.start settings input) = "" := rfl
  cases verbose with
  | true =>
    dsimp only
    rw [hlog]
    rfl
  | false => rfl

/-- **Three commands on one script.**  A run does what running the script under the settings does.
A script that it does not refuse passes a check, and its tree is drawn exactly if it is not too
high.  Where integers are allowed, a check and a drawing end with the code for errors exactly if the
run refuses the script, and then all three report one and the same diagnostic. -/
theorem perform_agrees (hfile : look (Path.ofText file) = .file raw)
    (hsettings : Settings.resolve options.base read look (options.sources vars) = .ok settings)
    (v₁ v₂ v₃ json : Bool) :
    let script := scriptOf file (Text.plainLineEnds raw)
    let checked := perform limits read look vars input ⟨v₁, .check json, file⟩
    let drawn := perform limits read look vars input ⟨v₂, .tree, file⟩
    let ran := perform limits read look vars input ⟨v₃, .run options, file⟩
    ∃ log, (v₃ = false → log = "") ∧
      ran = (runUnder limits settings file script.text input v₃).after log ∧
      (¬ script.Refused limits settings input → checked.ending = .code 0 ∧
        ∃ p, script.parse limits = .ok p ∧
          (drawn.ending = .code 0 ↔ Program.height p ≤ limits.height)) ∧
      (settings.integers = true →
        (checked.ending = .code 1 ↔ script.Refused limits settings input) ∧
        (drawn.ending = .code 1 ↔ script.Refused limits settings input) ∧
        (script.Refused limits settings input → ∃ f : Failure, f.fault.isEarly = true ∧
          let report : Report := { diagnostics := [f.diagnostic] }
          ran = .ofCode 1 "" (log ++ reportText report) ∧
          checked = (if json then .ofCode 1 (summaryText file report) ""
            else .ofCode 1 "" (reportText report)) ∧
          drawn = .ofCode 1 "" (failureText f))) := by
  intro script checked drawn ran
  obtain ⟨log, hlog, hrun⟩ := runFile_eq hsettings v₃ file script.text
  have hchecked : checked = check limits json file script.text := withText_of_file hfile _
  have hdrawn : drawn = drawTree limits file script.text := withText_of_file hfile _
  have hran : ran = (runUnder limits settings file script.text input v₃).after log :=
    (withText_of_file hfile _).trans hrun
  rw [hchecked, hdrawn, hran]
  refine ⟨log, hlog, rfl, ?_, ?_⟩
  · intro hrefused
    obtain ⟨p, hp⟩ : ∃ p, (script.withSettings settings).parse limits = .ok p := by
      cases hparse : (script.withSettings settings).parse limits with
      | ok p => exact ⟨p, rfl⟩
      | error f => exact absurd (Script.refused_iff.mpr ⟨f, hparse⟩) hrefused
    have hparse : script.parse limits = .ok p := Script.parse_of_settings hp
    exact ⟨check_of_ok hparse json, p, hparse, drawTree_eq_code_iff hparse⟩
  · intro hintegers
    have hsame : script.withSettings settings = script := Script.withSettings_eq hintegers
    have hrefused : script.Refused limits settings input ↔ ∃ f, script.parse limits = .error f := by
      rw [Script.refused_iff, hsame]
    rw [hrefused]
    refine ⟨check_fails_iff json, drawTree_fails_iff, ?_⟩
    rintro ⟨f, hparse⟩
    have hrefusing : ((scriptOf file script.text).withSettings settings).parse limits = .error f :=
      (congrArg (Script.parse · limits) hsame).trans hparse
    have hreport : runUnder limits settings file script.text input v₃ =
        .ofCode 1 "" (reportText { diagnostics := [f.diagnostic] }) :=
      runUnder_of_error hrefusing v₃
    exact ⟨f, Script.isEarly_of_parse hparse, congrArg (Transcript.after · log) hreport,
      check_of_error hparse json, drawTree_of_error hparse⟩

/-- A folder in which every path leads to a script with a bad piece. -/
def badFolder : Path → Entry := fun _ => .file "speak @;\r\n"

def badFailure : Failure :=
  ⟨.badToken "@", some ⟨some "bad", ⟨1, 7, 6⟩, ⟨1, 8, 7⟩⟩, some "speak @;"⟩

/-- Checked, drawn and run, the script is refused with one diagnostic. -/
theorem perform_agrees_badSample :
    badFolder (Path.ofText "bad") = .file "speak @;\r\n" ∧
      Settings.resolve ({} : RunOptions).base Document.ofText badFolder
        (({} : RunOptions).sources []) = .ok {} ∧
      ∃ f : Failure, f.fault.isEarly = true ∧
        perform .small Document.ofText badFolder [] "" ⟨false, .run {}, "bad"⟩ =
          .ofCode 1 "" (reportText { diagnostics := [f.diagnostic] }) ∧
        perform .small Document.ofText badFolder [] "" ⟨false, .check false, "bad"⟩ =
          .ofCode 1 "" (reportText { diagnostics := [f.diagnostic] }) ∧
        perform .small Document.ofText badFolder [] "" ⟨false, .tree, "bad"⟩ =
          .ofCode 1 "" (failureText f) := by
  refine ⟨rfl, rfl, ?_⟩
  obtain ⟨log, hlog, -, -, hreport⟩ :=
    @perform_agrees .small Document.ofText badFolder [] "" "bad" "speak @;\r\n" {} {} rfl rfl
      false false false false
  obtain ⟨-, -, hreport⟩ := hreport rfl
  have hrefused : (scriptOf "bad" (Text.plainLineEnds "speak @;\r\n")).Refused .small {} "" := by
    have hrun : ((scriptOf "bad" (Text.plainLineEnds "speak @;\r\n")).run .small {} "").1 =
        .ok ⟨false, [badFailure]⟩ := by
      decide +kernel
    exact ⟨_, hrun, badFailure, List.mem_singleton_self _, by decide⟩
  obtain ⟨f, hearly, hran, hchecked, hdrawn⟩ := hreport hrefused
  rw [hlog rfl, String.empty_append] at hran
  exact ⟨f, hearly, hran, hchecked, hdrawn⟩

/-- Where every path leads to the script that compares texts so many times. -/
def comparingFolder (n : Nat) : Path → Entry := fun _ => .file (comparingText n)

/-- **Scripts that a run reads and a drawing does not.**  With more comparisons than a drawing has
room for, the script passes a check, and its run does not refuse it, but no tree is drawn. -/
theorem drawTree_tooHigh_of_comparing (hnesting : 2 ≤ limits.nesting) {n : Nat}
    (hheight : limits.height < n + 2) (hintegers : settings.integers = true) (file input : String) :
    ¬ (scriptOf file (comparingText n)).Refused limits settings input ∧
      (perform limits read (comparingFolder n) vars input ⟨false, .check false, file⟩).ending =
        .code 0 ∧
      (perform limits read (comparingFolder n) vars input ⟨false, .tree, file⟩).ending =
        .tooHigh := by
  obtain ⟨p, hp, hlevels⟩ := parse_comparing hnesting n file
  have hfile : comparingFolder n (Path.ofText file) = .file (comparingText n) := rfl
  refine ⟨?_, ?_, ?_⟩
  · rw [Script.refused_iff]
    rintro ⟨f, hf⟩
    rw [Script.withSettings_eq hintegers, hp] at hf
    cases hf
  · have hcheck := withText_of_file hfile (check limits false file)
    rw [plainLineEnds_comparing] at hcheck
    exact (congrArg Transcript.ending hcheck).trans (check_of_ok hp false)
  · have hdraw := withText_of_file hfile (drawTree limits file)
    rw [plainLineEnds_comparing] at hdraw
    have hending := (congrArg Transcript.ending hdraw).trans (drawTree_of_ok hp)
    rw [hlevels, if_neg (Nat.not_le_of_lt hheight)] at hending
    exact hending

/-- Room for a thousand levels of a drawing. -/
def thousandLevels : Limits := { Limits.small with height := 1000 }

/-- Three thousand comparisons are checked and run where a thousand levels are drawn at most. -/
theorem perform_agrees_tallSample :
    Settings.resolve ({} : RunOptions).base Document.ofText (comparingFolder 3000)
        (({} : RunOptions).sources []) = .ok {} ∧
      ¬ (scriptOf "tall" (comparingText 3000)).Refused thousandLevels {} "" ∧
      (perform thousandLevels Document.ofText (comparingFolder 3000) [] ""
        ⟨false, .check false, "tall"⟩).ending = .code 0 ∧
      (perform thousandLevels Document.ofText (comparingFolder 3000) [] ""
        ⟨false, .tree, "tall"⟩).ending = .tooHigh :=
  ⟨rfl, drawTree_tooHigh_of_comparing (by decide) (by decide) rfl "tall" ""⟩

end Command

end DialogueScript
