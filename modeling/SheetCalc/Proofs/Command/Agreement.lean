import SheetCalc.Main
import SheetCalc.Proofs.Command.Console
import SheetCalc.Proofs.Files
import SheetCalc.Proofs.Journal.Outcomes
import SheetCalc.Proofs.Label
import SheetCalc.Proofs.Sheet.FixedPoint
import SheetCalc.Proofs.Sheet.Loading
import SheetCalc.Proofs.Sheet.Positions

/-!
# A cell and its formula

To evaluate a cell of a sheet is to evaluate the formula that is stored in it
(`cell_agrees_with_eval`). Both come to the same although the cell is made first and stored into
afterwards, since a cell that has just been made is seen like none, and what is stored is not looked
at any more. The two command lines emit different events, but no event shows in what is printed.
-/

namespace SheetCalc

namespace Sheet

/-- The formula of a cell comes to the same before and after the cell has been asked for. -/
theorem judge_touch (s : Sheet) (label : Text) :
    ((s.touch label).judge label).evaluator = (s.judge label).evaluator := by
  have grown := s.grown_touch label
  exact (judge_congr (grown.formulaOf label) fun other _ => grown.viewOf other).1

end Sheet

namespace Command

open Procedure (run_bind run_bind_ok)

/-! ## Reading the arguments -/

namespace Arguments

/-- A text is an option without a value behind an equals sign. -/
def IsName (name : Text) : Prop :=
  name ≠ endOfOptions ∧ isOption name = true ∧ splitOption name = (name, none)

theorem isName_sheet : IsName "--sheet" := by
  unfold IsName
  decide

theorem isName_project : IsName "--project" := by
  unfold IsName
  decide

theorem isName_json : IsName "--json" := by
  unfold IsName
  decide

section

variable {options : Options} {a : Arguments} {name : String}

theorem readFrom_valued (isName : IsName name) (known : nameIn? options.valued name = some name)
    (value : Text) (rest : List Text) :
    readFrom options a (name :: value :: rest) =
      readFrom options { a with options := a.options ++ [(name, some value)] } rest := by
  obtain ⟨no_end, form, whole⟩ := isName
  rw [readFrom, if_neg no_end, if_pos form, whole]
  simp only [known]

theorem readFrom_switch (isName : IsName name) (unvalued : nameIn? options.valued name = none)
    (known : nameIn? options.switches name = some name) (rest : List Text) :
    readFrom options a (name :: rest) =
      readFrom options { a with options := a.options ++ [(name, none)] } rest := by
  obtain ⟨no_end, form, whole⟩ := isName
  rw [readFrom, if_neg no_end, if_pos form, whole]
  simp only [known, unvalued]

theorem readFrom_other {arg : Text} (no_option : isOption arg = false) (rest : List Text) :
    readFrom options a (arg :: rest) =
      readFrom options { a with others := a.others ++ [arg] } rest := by
  have no_end : arg ≠ endOfOptions := by
    rintro rfl
    cases no_option
  rw [readFrom, if_neg no_end, if_neg (by simp [no_option])]

theorem readFrom_end (rest : List Text) :
    readFrom options a (endOfOptions :: rest) = some { a with others := a.others ++ rest } := by
  rw [readFrom, if_pos rfl]

end

end Arguments

/-- The switch that has a value shown as JSON. -/
def jsonSwitch (json : Bool) : List Text :=
  if json then ["--json"] else []

/-- The options that say in which project a sheet is evaluated, and how that is shown. -/
def settings (project : Option Text) (json : Bool) : List Text :=
  match project with
  | some directory => "--project" :: directory :: jsonSwitch json
  | none => jsonSwitch json

/-- The options that are read off these and the file of a sheet. -/
def settingsRead (sheet : Text) (project : Option Text) (json : Bool) :
    List (String × Option Text) :=
  ("--sheet", some sheet) :: (project.toList.map fun directory => ("--project", some directory))
    ++ if json then [("--json", none)] else []

/-- The command line that evaluates a cell of a sheet. -/
def cellLine (label sheet : Text) (project : Option Text) (json : Bool) : List Text :=
  "cell" :: label :: "--sheet" :: sheet :: settings project json

/-- The command line that evaluates a formula on a sheet. -/
def evalLine (tokens : List Text) (sheet : Text) (project : Option Text) (json : Bool) :
    List Text :=
  "eval" :: "--sheet" :: sheet :: (settings project json ++ endOfOptions :: tokens)

theorem readFrom_settings {verb : Verb} (evaluates : verb = .eval ∨ verb = .cell) (a : Arguments)
    (sheet : Text) (project : Option Text) (json : Bool) (rest : List Text) :
    Arguments.readFrom verb.options a ("--sheet" :: sheet :: (settings project json ++ rest)) =
      Arguments.readFrom verb.options
        { a with options := a.options ++ settingsRead sheet project json } rest := by
  have same : verb.options = ⟨["--json"], ["--sheet", "--project"]⟩ := by
    rcases evaluates with rfl | rfl <;> rfl
  have read_json (a : Arguments) : Arguments.readFrom verb.options a (jsonSwitch json ++ rest) =
      Arguments.readFrom verb.options
        { a with options := a.options ++ if json then [("--json", none)] else [] } rest := by
    cases json with
    | false => simp [jsonSwitch]
    | true =>
        rw [same]
        exact Arguments.readFrom_switch Arguments.isName_json (by decide) (by decide) rest
  rw [same, Arguments.readFrom_valued Arguments.isName_sheet (by decide), ← same]
  unfold settings settingsRead
  cases project with
  | none =>
      rw [read_json]
      simp
  | some directory =>
      rw [List.cons_append, List.cons_append, same,
        Arguments.readFrom_valued Arguments.isName_project (by decide), ← same, read_json]
      simp

theorem read_cellLine {label : Text} (no_option : isOption label = false) (sheet : Text)
    (project : Option Text) (json : Bool) :
    Line.read? (cellLine label sheet project json) =
      some (.verb .cell ⟨settingsRead sheet project json, [label]⟩) := by
  have verb : Verb.ofName? "cell" = some .cell := by decide
  have read := readFrom_settings (.inr rfl) ⟨[], [label]⟩ sheet project json []
  rw [List.append_nil] at read
  have arguments : Arguments.read? Verb.cell.options
      (label :: "--sheet" :: sheet :: settings project json) =
        some ⟨settingsRead sheet project json, [label]⟩ := by
    unfold Arguments.read?
    rw [Arguments.readFrom_other no_option]
    simp [read, Arguments.readFrom]
  have named : Line.read? (cellLine label sheet project json) =
      Line.readVerb? ("cell" :: label :: "--sheet" :: sheet :: settings project json) := rfl
  rw [named]
  simp [Line.readVerb?, verb, arguments]

theorem read_evalLine (tokens : List Text) (sheet : Text) (project : Option Text) (json : Bool) :
    Line.read? (evalLine tokens sheet project json) =
      some (.verb .eval ⟨settingsRead sheet project json, tokens⟩) := by
  have verb : Verb.ofName? "eval" = some .eval := by decide
  have read := readFrom_settings (.inl rfl) {} sheet project json (endOfOptions :: tokens)
  rw [Arguments.readFrom_end] at read
  have named : Line.read? (evalLine tokens sheet project json) =
      Line.readVerb? ("eval" :: "--sheet" :: sheet ::
        (settings project json ++ endOfOptions :: tokens)) := rfl
  rw [named]
  simp [Line.readVerb?, verb, Arguments.read?, read]

/-- A label is no option, since none begins with a dash. -/
theorem isOption_label {label : Text} {p : Position} (named : Label.parse label = .ok p) :
    isOption label = false := by
  unfold isOption
  split
  · next first second rest points =>
      rw [beq_eq_false_iff_ne]
      rintro rfl
      have there : '-' ∈ label.chars := by
        unfold Text.chars
        rw [points]
        simp
      have possible := Label.mem_chars_of_parse named there
      revert possible
      decide
  · rfl

/-! ## What is asked for -/

section

variable (fs : Files) (sheet : Text) (project : Option Text) (json : Bool)

/-- The paths that are named can be looked at, and the project is there. -/
structure Found : Prop where
  path : Line.checkPath fs sheet = .ok ()
  directory : ∀ directory, project = some directory → Line.checkProject fs directory = .ok ()

variable {fs sheet project}

theorem forM_ok {ε α : Type} {check : α → Except ε Unit} {xs : List α}
    (sound : ∀ x ∈ xs, check x = .ok ()) : xs.forM check = .ok () := by
  induction xs with
  | nil => rfl
  | cons x xs ih =>
      have others := ih fun y there => sound y (List.mem_cons_of_mem x there)
      show (check x >>= fun _ => xs.forM check) = .ok ()
      rw [sound x List.mem_cons_self]
      exact others

/-- What is given by the options beside the name of the command. -/
theorem settings_given (found : Found fs sheet project) (others : List Text) :
    let a : Arguments := ⟨settingsRead sheet project json, others⟩
    a.given.forM (Line.checkOption fs a) = .ok () ∧ a.value? "--sheet" = some sheet ∧
      Line.project a = project.getD defaultProject ∧ a.has "--json" = json := by
  intro a
  have sheet_given : a.value? "--sheet" = some sheet := by
    cases project <;> cases json <;> rfl
  have project_given : a.value? "--project" = project := by
    cases project <;> cases json <;> rfl
  refine ⟨forM_ok ?_, sheet_given, congrArg (·.getD defaultProject) project_given, ?_⟩
  · intro name there
    have known : name = "--sheet" ∨ name = "--project" ∨ name = "--json" := by
      have listed : name ∈ (settingsRead sheet project json).map (·.1) :=
        List.mem_eraseDups.mp there
      cases project <;> cases json <;> simp [settingsRead] at listed <;> grind
    unfold Line.checkOption
    rcases known with rfl | rfl | rfl
    · rw [sheet_given]
      exact found.path
    · rw [project_given]
      cases project with
      | none => rfl
      | some directory => exact found.directory directory rfl
    · rfl
  · cases project <;> cases json <;> rfl

/-- What the two command lines ask for. -/
theorem command_cell (found : Found fs sheet project) (label : Text) :
    Line.command fs (.verb .cell ⟨settingsRead sheet project json, [label]⟩) =
      .ok (.cell label sheet (project.getD defaultProject) json) := by
  obtain ⟨checked, sheet_given, project_given, json_given⟩ :=
    settings_given json found [label]
  simp only [Line.command, checked, sheet_given, project_given, json_given]
  rfl

theorem command_eval (found : Found fs sheet project) (tokens : List Text) :
    Line.command fs (.verb .eval ⟨settingsRead sheet project json, tokens⟩) =
      .ok (.eval tokens (some sheet) (project.getD defaultProject) json) := by
  obtain ⟨checked, sheet_given, project_given, json_given⟩ :=
    settings_given json found tokens
  simp only [Line.command, checked, sheet_given, project_given, json_given]
  rfl

end

/-! ## Showing an evaluation -/

/-- What is printed of an evaluation. -/
def announce (tokens : List Text) (ev : Formula.Evaluator) (config : Config) (json : Bool)
    (label : Option Text) : Action Unit :=
  if json then print (.ofChars (Json.indentedText (outcomeValue tokens ev label)))
  else if ev.error.isEmpty then showResult config ev.result
  else printError ("Error: " ++ ev.error)

/-- How a command ends that has shown an evaluation. -/
def verdict (ev : Formula.Evaluator) : Action Unit :=
  if ev.error.isEmpty then pure () else stop .failed

theorem showOutcome_eq (tokens : List Text) (ev : Formula.Evaluator) (config : Config) (json : Bool)
    (label : Option Text) :
    showOutcome tokens ev config json label = (do
      emit fun time => Journal.Event.ofOutcome time tokens ev.result ev.error label
      announce tokens ev config json label
      verdict ev) := by
  unfold showOutcome announce verdict
  cases json <;> cases ev.error.isEmpty <;> simp

theorem alike_verdict (ev : Formula.Evaluator) : Alike (verdict ev) (verdict ev) := by
  unfold verdict
  split
  · exact alike_pure ()
  · exact alike_stop .failed

theorem alike_announce (tokens : List Text) (ev : Formula.Evaluator) (config : Config)
    (label other : Option Text) :
    Alike (announce tokens ev config false label) (announce tokens ev config false other) := by
  unfold announce
  rw [if_neg Bool.false_ne_true, if_neg Bool.false_ne_true]
  split
  · exact alike_showResult config ev.result
  · exact alike_printError _

/-- A value as it is printed. -/
def printed (v : Value) : String :=
  String.ofList (Json.indentedText v) ++ "\n"

/-- What two commands have in common that show the same evaluation, one of them as that of a
cell. -/
structure SameEvaluation (json : Bool) (label : Text) (before : String)
    (cell eval : Except Stop Unit × Console) : Prop where
  ending : cell.1 = eval.1
  err : cell.2.err = eval.2.err
  held : cell.2.held = eval.2.held
  out : json = false → cell.2.out = eval.2.out
  out_json : json = true → ∃ fields, eval.2.out = before ++ printed (.mapping fields) ∧
    cell.2.out = before ++ printed (.mapping (fields ++ [(.text "label", .text label)]))

theorem outcomeValue_label (tokens : List Text) (ev : Formula.Evaluator) (label : Text) :
    ∃ fields, outcomeValue tokens ev none = .mapping fields ∧
      outcomeValue tokens ev (some label) =
        .mapping (fields ++ [(.text "label", .text label)]) := by
  refine ⟨[(.text "tokens", .list (tokens.map .text)),
    (.text "result", Journal.Event.logged ev.result), (.text "error", .text ev.error)], ?_, ?_⟩
  · simp [outcomeValue]
  · simp [outcomeValue]

theorem run_announce_json (tokens : List Text) (ev : Formula.Evaluator) (config : Config)
    (label : Option Text) (c : Console) :
    (announce tokens ev config true label).run c =
      (.ok (), { c with out := c.out ++ printed (outcomeValue tokens ev label) }) := by
  unfold announce printed
  rw [if_pos rfl, run_print_value, String.append_assoc]

theorem run_verdict (ev : Formula.Evaluator) (c : Console) :
    (verdict ev).run c = (if ev.error.isEmpty then .ok () else .error .failed, c) := by
  unfold verdict
  split <;> rfl

/-- Showing an evaluation as that of a cell makes no difference but the name of the cell. -/
theorem sameEvaluation_showOutcome (tokens : List Text) (ev : Formula.Evaluator) (config : Config)
    (json : Bool) (label : Text) (c : Console) :
    SameEvaluation json label c.out ((showOutcome tokens ev config json (some label)).run c)
      ((showOutcome tokens ev config json none).run c) := by
  rw [showOutcome_eq, showOutcome_eq]
  have shows := shows_emit
    (fun time => Journal.Event.ofOutcome time tokens ev.result ev.error (some label))
    (fun time => Journal.Event.ofOutcome time tokens ev.result ev.error none) c
    (Journal.Event.storable_ofOutcome _ _ _ _ _).fits
    (Journal.Event.storable_ofOutcome _ _ _ _ _).fits
  obtain ⟨c₁, emitted₁, out₁, _⟩ := emit_ok
    (fun time => Journal.Event.ofOutcome time tokens ev.result ev.error (some label)) c
  obtain ⟨c₂, emitted₂, out₂, _⟩ := emit_ok
    (fun time => Journal.Event.ofOutcome time tokens ev.result ev.error none) c
  rw [emitted₁, emitted₂] at shows
  rw [run_bind_ok emitted₁, run_bind_ok emitted₂]
  -- From here on nothing counts of the two consoles but what has been printed.
  cases json with
  | false =>
      have alike := (alike_announce tokens ev config (some label) none).bind fun _ =>
        alike_verdict ev
      obtain ⟨ending, same⟩ := alike c₁ c₂ shows
      exact ⟨ending, same.err, same.held, fun _ => same.out, fun absurd => nomatch absurd⟩
  | true =>
      rw [run_bind_ok (run_announce_json tokens ev config _ c₁),
        run_bind_ok (run_announce_json tokens ev config _ c₂)]
      obtain ⟨fields, formula, cell⟩ := outcomeValue_label tokens ev label
      simp only [run_verdict]
      refine ⟨rfl, shows.err, shows.held, fun absurd => (nomatch absurd), ?_⟩
      intro _
      refine ⟨fields, ?_, ?_⟩
      · rw [out₂, formula]
      · rw [out₁, cell]

/-! ## Evaluating a cell and a formula -/

/-- Evaluates a cell of a sheet and shows what it came to. -/
def showCell (s : Sheet) (label : Text) (config : Config) (json : Bool) : Action Unit :=
  match s.evaluateCell label {} with
  | .error e => report e.message
  | .ok (ev, _) => showOutcome (s.formulaOf label) ev config json (some label)

/-- The command makes the cell before it evaluates it, but it comes to the same without that. -/
theorem runCell_eq (label file project : Text) (json : Bool) :
    runCell label file project json = (do
      let config ← openProject project
      let s ← openSheet (some file) config
      showCell s label config json) := by
  unfold runCell
  congr 1
  funext config
  congr 1
  funext s
  unfold showCell
  cases inside : s.position label with
  | error e =>
      have no_cell : s.cell label = .error e := by
        unfold Sheet.cell
        rw [inside]
      have no_evaluation : s.evaluateCell label {} = .error e := by
        unfold Sheet.evaluateCell
        rw [no_cell]
      rw [no_cell, no_evaluation]
  | ok p =>
      have inside_touched : (s.touch label).position label = .ok p :=
        (s.grown_touch label).position label ▸ inside
      obtain ⟨_, evaluated, _⟩ := s.evaluateCell_spec inside
      obtain ⟨_, again, _⟩ := (s.touch label).evaluateCell_spec inside_touched
      rw [s.judge_touch label] at again
      rw [evaluated, s.cell_eq inside]
      simp only [again]
      rfl

/-- A command that works on a project loads its configuration, and a sheet from a file. -/
structure Opens (fs : Files) (project : Option Text) (file : Text) (config : Config) (s : Sheet) :
    Prop extends Found fs file project where
  configured : Config.load fs (.ofText (project.getD defaultProject)) = .ok config
  tail : ∃ tail, Journal.tailOf config = .ok tail
  loads : ∃ rows cols, sizeOf config = .ok (rows, cols) ∧
    Sheet.load fs (.ofText file) rows cols = .ok s

section

variable {c : Console} {project : Option Text} {file label : Text} {config : Config} {s : Sheet}
  {p : Position}

theorem run_opens (opens : Opens c.files project file config s) :
    ∃ ready after, (openProject (project.getD defaultProject)).run c = (.ok config, ready) ∧
      (openSheet (some file) config).run ready = (.ok s, after) ∧ after.out = c.out := by
  obtain ⟨tail, sound⟩ := opens.tail
  obtain ⟨rows, cols, size, loaded⟩ := opens.loads
  refine ⟨_, _, run_openProject opens.configured sound,
    (run_openSheet size (some file) _).trans (run_loadSheet loaded), ?_⟩
  rw [run_emit]

/-- The two commands come to show the same evaluation on the same console. -/
theorem run_evaluations (opens : Opens c.files project file config s)
    (inside : s.position label = .ok p) (json : Bool) :
    ∃ after, after.out = c.out ∧
      (runCell label file (project.getD defaultProject) json).run c =
        (showOutcome (s.formulaOf label) (s.judge label).evaluator config json (some label)).run
          after ∧
      (runEval (s.formulaOf label) (some file) (project.getD defaultProject) json).run c =
        (showOutcome (s.formulaOf label) (s.judge label).evaluator config json none).run after := by
  obtain ⟨ready, after, project_opened, sheet_opened, out⟩ := run_opens opens
  refine ⟨after, out, ?_, ?_⟩
  · obtain ⟨_, evaluated, _⟩ := s.evaluateCell_spec inside
    rw [runCell_eq, run_bind_ok project_opened, run_bind_ok sheet_opened]
    unfold showCell
    rw [evaluated]
  · unfold runEval
    rw [run_bind_ok project_opened, run_bind_ok sheet_opened]
    rfl

end

/-! ## The two command lines -/

/-- What the program prints about what is wrong. -/
def Outcome.stderr (o : Outcome) : String :=
  o.console.err ++ o.console.held ++ (o.stop.map Program.remark).getD ""

/-- How a command line ends that asks for a command. -/
def Outcome.ofRun (done : Except Stop Unit × Console) : Outcome where
  stop := match done.1 with
    | .ok () => none
    | .error s => some s
  console := done.2

theorem runLine_eq {args : List Text} {c : Console} {line : Line} {command : Command}
    (read : Line.read? args = some line) (asked : Line.command c.files line = .ok command) :
    runLine args c = .ofRun ((run command).run c) := by
  unfold runLine
  rw [read, Option.elim_some, asked]
  simp only
  rcases (run command).run c with ⟨_ | _, _⟩ <;> rfl

/-- **A cell comes to what its formula comes to.** On every sheet, evaluating a cell with a new
evaluator gives what evaluating its formula gives. The command line that evaluates a cell of a sheet
that is loaded ends like the one that evaluates its formula, and prints the same, but for the name
of the cell among the fields in JSON. -/
theorem cell_agrees_with_eval :
    (∀ (s : Sheet) (label : Text) (p : Position), s.position label = .ok p →
      ∃ t, s.evaluateCell label {} =
        .ok ((Formula.evaluate Sheet.resolver (s.formulaOf label) s).evaluator, t)) ∧
    ∀ (c : Console) (project : Option Text) (file label : Text) (json : Bool) (config : Config)
      (s : Sheet) (p : Position), Opens c.files project file config s →
      s.position label = .ok p →
      let cell := runLine (cellLine label file project json) c
      let eval := runLine (evalLine (s.formulaOf label) file project json) c
      cell.exitCode = eval.exitCode ∧ cell.stderr = eval.stderr ∧
        (json = false → cell.console.out = eval.console.out) ∧
        (json = true → ∃ fields, eval.console.out = c.out ++ printed (.mapping fields) ∧
          cell.console.out =
            c.out ++ printed (.mapping (fields ++ [(.text "label", .text label)]))) := by
  constructor
  · intro s label p inside
    obtain ⟨t, evaluated, _⟩ := s.evaluateCell_spec inside
    exact ⟨t, evaluated⟩
  · intro c project file label json config s p opens inside
    have named : isOption label = false := isOption_label (Sheet.position_ok_iff.mp inside).1
    rw [runLine_eq (read_cellLine named file project json) (command_cell json opens.toFound label),
      runLine_eq (read_evalLine _ file project json) (command_eval json opens.toFound _)]
    obtain ⟨after, out, cell, eval⟩ := run_evaluations opens inside json
    have same := sameEvaluation_showOutcome (s.formulaOf label) (s.judge label).evaluator config
      json label after
    rw [← cell, ← eval, out] at same
    have stop :
        (Outcome.ofRun ((runCell label file (project.getD defaultProject) json).run c)).stop =
          (Outcome.ofRun ((runEval (s.formulaOf label) (some file) (project.getD defaultProject)
            json).run c)).stop := by
      unfold Outcome.ofRun
      rw [same.ending]
    unfold run
    refine ⟨?_, ?_, same.out, same.out_json⟩
    · unfold Outcome.exitCode
      rw [stop]
    · unfold Outcome.stderr
      rw [stop]
      exact congrArg₂ (· ++ · ++ _) same.err same.held

/-! ### Two sheets -/

/-- Files with a sheet file that holds a text. -/
def shelf (text : List Char) : Files :=
  { nodes := [(["sheet.yaml"], .file (Text.Utf8.encode text))] }

theorem holds_shelf (text : List Char) :
    (shelf text).Holds (.ofText "sheet.yaml") (Text.Utf8.encode text) :=
  ⟨["sheet.yaml"], by rfl, by rfl⟩

theorem opens_shelf {text : List Char} {s : Sheet}
    (loads : Sheet.load (shelf text) (.ofText "sheet.yaml") 100 26 = .ok s) :
    Opens (shelf text) none "sheet.yaml" Config.default s :=
  ⟨⟨by rfl, fun _ absurd => nomatch absurd⟩, by rfl, ⟨2097152, by rfl⟩, 100, 26, by rfl, loads⟩

/-- Files with an empty one. -/
def blankFile : Files :=
  { nodes := [(["sheet.yaml"], .file [])] }

/-- The sheet without cells of the default size. -/
def blankSheet : Sheet :=
  { rows := 100, cols := 26, rows_pos := by decide, cols_pos := by decide }

/-- An empty file is a sheet without cells. -/
theorem opens_blankFile : Opens blankFile none "sheet.yaml" Config.default blankSheet := by
  have document : Yaml.read (Text.unifyBreaks []) = .ok .null := by rfl
  have loads : Sheet.load (shelf []) (.ofText "sheet.yaml") 100 26 = .ok blankSheet := by
    rw [Sheet.load_eq (holds_shelf []), document]
    rfl
  exact opens_shelf loads

/-- A cell that refers to itself, and then to one with an error. -/
def loopText : List Char :=
  "cells:\n  A1: \x7bformula: [A1, +, B1]\x7d\n  B1: \x7berror: lost\x7d\n".toList

def loopSheet : Sheet :=
  { blankSheet with
    cells := [{ label := "A1", formula := ["A1", "+", "B1"] }, { label := "B1", error := "lost" }] }

theorem read_loopText : Yaml.read (Text.unifyBreaks loopText) = .ok (.mapping
    [(.text "cells", .mapping
      [(.text "A1", .mapping
          [(.text "formula", .list [.text "A1", .text "+", .text "B1"])]),
        (.text "B1", .mapping [(.text "error", .text "lost")])])]) := by
  let plain (s : String) : Yaml.Node := .plain s.toList
  let node : Yaml.Node := .mapping
    [(plain "cells", .mapping
      [(plain "A1", .mapping [(plain "formula", .sequence [plain "A1", plain "+", plain "B1"])]),
        (plain "B1", .mapping [(plain "error", plain "lost")])])]
  have parsed : Yaml.Node.ofText? (Text.unifyBreaks (Text.unifyBreaks loopText)) =
      .ok (some node) := by
    decide +kernel
  exact Yaml.read_of_node parsed (by decide +kernel) rfl

theorem opens_loopText : Opens (shelf loopText) none "sheet.yaml" Config.default loopSheet := by
  refine opens_shelf ?_
  rw [Sheet.load_eq (holds_shelf loopText), read_loopText]
  rfl

/-- The cell that refers to itself is shown as its formula is, with the error of the other one, and
its label in addition. -/
theorem cell_agrees_with_eval_loop :
    let c : Console := { files := shelf loopText, time := "2024-01-02T03:04:05.000006Z" }
    let formula : List Text := ["A1", "+", "B1"]
    let report := Formula.evaluate Sheet.resolver formula loopSheet
    let cell := runLine (cellLine "A1" "sheet.yaml" none true) c
    let eval := runLine (evalLine formula "sheet.yaml" none true) c
    Opens c.files none "sheet.yaml" Config.default loopSheet ∧
      loopSheet.position "A1" = .ok ⟨0, 0⟩ ∧
      report.evaluator.error = "lost" ∧ report.asked = ["A1", "B1"] ∧
      (∃ t, loopSheet.evaluateCell "A1" {} = .ok (report.evaluator, t)) ∧
      cell.exitCode = eval.exitCode ∧ cell.stderr = eval.stderr ∧
      ∃ fields, eval.console.out = c.out ++ printed (.mapping fields) ∧
        cell.console.out =
          c.out ++ printed (.mapping (fields ++ [(.text "label", .text "A1")])) := by
  intro c formula report cell eval
  have inside : loopSheet.position "A1" = .ok ⟨0, 0⟩ := by decide
  obtain ⟨on_sheet, on_lines⟩ := cell_agrees_with_eval
  obtain ⟨ending, err, _, fields⟩ :=
    on_lines c none "sheet.yaml" "A1" true Config.default loopSheet ⟨0, 0⟩ opens_loopText inside
  exact ⟨opens_loopText, inside, by rfl, by rfl, on_sheet loopSheet "A1" _ inside, ending, err,
    fields rfl⟩

end Command

end SheetCalc
