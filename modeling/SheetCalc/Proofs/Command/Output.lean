import SheetCalc.Proofs.Command.Configuration
import SheetCalc.Proofs.Command.Summary
import SheetCalc.Proofs.Journal.Finite

/-!
# Evaluations in JSON

A command that is asked to show an evaluation as JSON prints nothing else (`run_shows`). What it
prints of the evaluation, and the event about it, are strict JSON, whatever the evaluation came to;
and what it prints reads as the evaluation (`shown_strictly`). Only where a text has the two halves
of a surrogate pair side by side, they come back as the character that they make up
(`halves_shown_as_face`).
-/

namespace SheetCalc.Command

open Procedure (run_bind run_bind_ok run_bind_error)
open Journal (Log Emits)
open Journal.Event (GivenAs logged givenAs_logged)

variable {α : Type}

/-! ## What is shown -/

/-- An evaluation that is shown, of a cell if there is a label. -/
structure Shown where
  tokens : List Text
  ev : Formula.Evaluator
  label : Option Text

namespace Shown

/-- The fields of an evaluation, with its result given in some way and all that its texts say seen
in some way. -/
def fields (shown : Shown) (result : Value) (seen : Text → Text) : Entries Key Value :=
  [(.text "tokens", .list (shown.tokens.map fun t => .text (seen t))), (.text "result", result),
    (.text "error", .text (seen shown.ev.error))] ++
      (shown.label.map fun label => (.text "label", .text label)).toList

/-- The event about an evaluation. -/
def event (shown : Shown) (time : Text) : Journal.Event :=
  .ofOutcome time shown.tokens shown.ev.result shown.ev.error shown.label

end Shown

/-- The sheet that a command comes to work on, if its project is opened. -/
def opened? (c : Console) (project : Text) (path : Option Text) : Option Sheet :=
  (Config.load c.files (.ofText project)).toOption.bind fun config =>
    (c.emitter.attach (.ofText project) config).toOption.bind fun _ => sheetOf? c.files config path

/-- The evaluation that a command comes to show. -/
def shown? (c : Console) : Command → Option Shown
  | .eval tokens sheet project _ =>
    (opened? c project sheet).map fun s =>
      ⟨tokens, (Formula.evaluate Sheet.resolver tokens s).evaluator, none⟩
  | .cell label sheet project _ =>
    (opened? c project (some sheet)).bind fun s =>
      (s.evaluateCell label {}).toOption.map fun (ev, _) => ⟨s.formulaOf label, ev, some label⟩
  | _ => none

/-- A command is to show an evaluation as JSON. -/
def ShowsJson : Command → Prop
  | .eval _ _ _ json | .cell _ _ _ json => json = true
  | _ => False

/-! ## Reading it -/

section

variable (shown : Shown)

theorem outcomeValue_eq :
    outcomeValue shown.tokens shown.ev shown.label =
      .mapping (shown.fields (logged shown.ev.result) id) := by
  unfold outcomeValue Shown.fields
  cases shown.label <;> rfl

theorem fits_fields :
    Json.Fits Json.depthLimit (.mapping (shown.fields (logged shown.ev.result) id)) := by
  show Json.Fits (989 + 1) _
  refine Json.fits_of_named ?_
  unfold Shown.fields
  simp only [List.forall_mem_append, List.forall_mem_cons, List.not_mem_nil, false_implies,
    implies_true, and_true]
  refine ⟨⟨⟨⟨_, rfl⟩, Json.fits_texts 988 id _⟩, ⟨⟨_, rfl⟩, Journal.Event.fits_logged 989 _⟩,
    ⟨_, rfl⟩, Json.fits_text 989 _⟩, ?_⟩
  intro entry there
  obtain ⟨label, _, rfl⟩ := Option.map_eq_some_iff.mp (Option.mem_toList.mp there)
  exact ⟨⟨_, rfl⟩, Json.fits_text 989 label⟩

theorem isFinite_fields :
    (Value.mapping (shown.fields (logged shown.ev.result) id)).isFinite = true := by
  rw [Value.isFinite, Value.areEntriesFinite_iff]
  unfold Shown.fields
  simp only [List.forall_mem_append, List.forall_mem_cons, List.not_mem_nil, false_implies,
    implies_true, and_true]
  refine ⟨⟨Journal.Event.isFinite_texts id _, (givenAs_logged _).isFinite, rfl⟩, ?_⟩
  intro entry there
  obtain ⟨label, _, rfl⟩ := Option.map_eq_some_iff.mp (Option.mem_toList.mp there)
  rfl

end

/-- A result comes back as it is given. -/
theorem reread_given {result : Formula.Result} {v : Value} (given : GivenAs result v) :
    Json.reread v = v := by
  cases given with
  | finite finite =>
      rw [Json.reread]
      exact Json.rereadFloat_finite finite
  | blank => rw [Json.reread]
  | _ =>
      rw [Json.reread]
      exact congrArg Value.text (Text.paired_ofString _)

theorem reread_fields {shown : Shown} {result : Value} (given : GivenAs shown.ev.result result)
    (named : ∀ label, shown.label = some label → label.paired = label) :
    Json.reread (.mapping (shown.fields result id)) =
      .mapping (shown.fields result Text.paired) := by
  have error : Json.reread (.text shown.ev.error) = .text shown.ev.error.paired := by
    rw [Json.reread]
  have entries : Json.rereadEntries (shown.fields result id) = shown.fields result Text.paired := by
    have tokens := Json.reread_texts shown.tokens
    unfold Shown.fields
    cases found : shown.label with
    | none =>
        simp only [Option.map_none, Option.toList_none, List.append_nil, Json.rereadEntries,
          Key.jsonText, Text.paired_ofString, reread_given given, id_eq, tokens, error]
    | some label =>
        have whole : Json.reread (.text label) = .text label := by
          rw [Json.reread, named label found]
        simp only [Option.map_some, Option.toList_some, List.cons_append, List.nil_append,
          Json.rereadEntries, Key.jsonText, Text.paired_ofString, reread_given given, id_eq, tokens,
          error, whole]
  rw [Json.reread, entries]
  unfold Shown.fields
  cases shown.label <;> rfl

/-- **What is read of an evaluation that is shown.** -/
theorem read_shown {shown : Shown}
    (named : ∀ label, shown.label = some label → label.paired = label) :
    Json.read (Json.indentedText (outcomeValue shown.tokens shown.ev shown.label)) =
      .ok (.mapping (shown.fields (logged shown.ev.result) Text.paired)) := by
  rw [outcomeValue_eq, ← reread_fields (givenAs_logged _) named]
  exact Json.read_write .indented (fits_fields shown)

/-- Texts without pairs come back as they are. -/
theorem fields_unpaired {shown : Shown} (result : Value)
    (unpaired : ∀ t ∈ shown.ev.error :: shown.tokens, t.Unpaired) :
    shown.fields result Text.paired = shown.fields result id := by
  obtain ⟨error, tokens⟩ := List.forall_mem_cons.mp unpaired
  have same : shown.tokens.map (fun t => Value.text t.paired) = shown.tokens.map Value.text :=
    List.map_congr_left fun t there =>
      congrArg Value.text (Text.paired_of_unpaired (tokens t there))
  unfold Shown.fields
  rw [same, Text.paired_of_unpaired error]
  rfl

/-- The label of a cell has no halves of pairs. -/
theorem paired_label {s t : Sheet} {label : Text} {ev : Formula.Evaluator}
    (evaluated : s.evaluateCell label {} = .ok (ev, t)) : label.paired = label := by
  cases inside : s.position label with
  | error e =>
      unfold Sheet.evaluateCell Sheet.cell at evaluated
      rw [inside] at evaluated
      cases evaluated
  | ok p =>
      have whole := Label.whole_of_parse (Sheet.position_ok_iff.mp inside).1
      rw [← Text.ofChars_chars whole, Text.paired_ofChars]

theorem paired_shown {c : Console} {command : Command} {shown : Shown}
    (shows : shown? c command = some shown) :
    ∀ label, shown.label = some label → label.paired = label := by
  cases command with
  | eval tokens sheet project json =>
      obtain ⟨s, _, rfl⟩ := Option.map_eq_some_iff.mp shows
      nofun
  | cell label sheet project json =>
      obtain ⟨s, _, rest⟩ := Option.bind_eq_some_iff.mp shows
      obtain ⟨⟨ev, t⟩, evaluated, rfl⟩ := Option.map_eq_some_iff.mp rest
      rintro _ ⟨⟩
      cases ran : s.evaluateCell label {} with
      | error e =>
          rw [ran] at evaluated
          cases evaluated
      | ok done => exact paired_label ran
  | _ => cases shows

/-! ## Coming to it -/

/-- A part of a command comes to a result or ends early, and prints nothing. -/
structure Comes (a : Action α) (c : Console) (result? : Option α) : Prop where
  result : (a.run c).1.toOption = result?
  out : (a.run c).2.out = c.out
  time : (a.run c).2.time = c.time

theorem Comes.congr {a b : Action α} {c : Console} {result? : Option α} (same : a.run c = b.run c)
    (comes : Comes b c result?) : Comes a c result? :=
  ⟨same ▸ comes.result, same ▸ comes.out, same ▸ comes.time⟩

theorem comes_stop (s : Stop) (c : Console) : Comes (stop s : Action α) c none :=
  ⟨rfl, rfl, rfl⟩

theorem comes_orFault {ε : Type} (fault : ε → Fault) (r : Except ε α) (c : Console) :
    Comes (orFault fault r) c r.toOption := by
  cases r <;> exact ⟨rfl, rfl, rfl⟩

theorem comes_loadSheet (path : Text) (rows cols : Int) (c : Console) :
    Comes (loadSheet path rows cols) c (Sheet.load c.files (.ofText path) rows cols).toOption := by
  cases loaded : Sheet.load c.files (.ofText path) rows cols with
  | ok s =>
      have ran := run_loadSheet loaded
      exact ⟨by rw [ran]; rfl, by rw [ran]; rfl, by rw [ran]; rfl⟩
  | error e =>
      rcases run_loadSheet_error loaded with ⟨message, code, _, ran⟩ | ⟨f, ran⟩
      · exact .congr ran ⟨rfl, rfl, rfl⟩
      · exact .congr ran (comes_stop _ c)

theorem comes_openSheet (path : Option Text) (config : Config) (c : Console) :
    Comes (openSheet path config) c (sheetOf? c.files config path) := by
  have ran := run_openSheet_eq path config c
  unfold sheetOf?
  generalize sizeOf config = size at ran ⊢
  rcases size with e | ⟨rows, cols⟩
  · exact ⟨by rw [ran]; rfl, by rw [ran], by rw [ran]⟩
  · cases path with
    | none => exact .congr ran (comes_orFault .size (Sheet.ofSize rows cols) c)
    | some path => exact .congr ran (comes_loadSheet path rows cols c)

theorem comes_openProject_error {c : Console} {project : Text} {e : ConfigError}
    (failed : Config.load c.files (.ofText project) = .error e) :
    Comes (openProject project) c none := by
  by_cases refusal : e.IsRefusal
  · have ran := run_openProject_refused failed refusal
    exact ⟨by rw [ran]; rfl, by rw [ran]; rfl, by rw [ran]; rfl⟩
  · exact .congr (run_openProject_tripped failed refusal) (comes_stop _ c)

/-- What comes behind a part that prints nothing goes on with its result, if there is one. -/
theorem Comes.run_bind {a : Action α} {c : Console} {result? : Option α} (comes : Comes a c result?)
    (f : α → Action Unit) :
    (result? = none → ((a >>= f).run c).2.out = c.out) ∧
      ∀ x, result? = some x → ∃ ready, ready.out = c.out ∧ ready.time = c.time ∧
        (a >>= f).run c = (f x).run ready := by
  obtain ⟨result, out, time⟩ := comes
  rcases ran : a.run c with ⟨e | x, ready⟩
  · rw [ran] at result out
    subst result
    rw [run_bind_error ran]
    exact ⟨fun _ => out, nofun⟩
  · rw [ran] at result out time
    subst result
    rw [run_bind_ok ran]
    refine ⟨nofun, ?_⟩
    rintro _ ⟨⟩
    exact ⟨ready, out, time, rfl⟩

/-- A command that works on a sheet comes to work on it, or it prints nothing. -/
theorem run_opened (c : Console) (project : Text) (path : Option Text)
    (f : Config → Sheet → Action Unit) :
    let done := (do
      let config ← openProject project
      let s ← openSheet path config
      f config s : Action Unit).run c
    (opened? c project path = none → done.2.out = c.out) ∧
      ∀ s, opened? c project path = some s → ∃ config ready, ready.out = c.out ∧
        ready.time = c.time ∧ done = (f config s).run ready := by
  cases loaded : Config.load c.files (.ofText project) with
  | error e =>
      have nowhere : opened? c project path = none := by
        unfold opened?
        rw [loaded]
        rfl
      rw [nowhere]
      exact ⟨fun _ => ((comes_openProject_error loaded).run_bind _).1 rfl,
        fun _ absurd => nomatch absurd⟩
  | ok config =>
      cases attached : c.emitter.attach (.ofText project) config with
      | error e =>
          have nowhere : opened? c project path = none := by
            unfold opened?
            rw [loaded, Except.toOption, Option.bind_some, attached]
            rfl
          have comes : Comes (openProject project) c none :=
            .congr (run_openProject_unattached loaded attached) (comes_stop _ c)
          rw [nowhere]
          exact ⟨fun _ => (comes.run_bind _).1 rfl, fun _ absurd => nomatch absurd⟩
      | ok emitter =>
          have there : opened? c project path = sheetOf? c.files config path := by
            unfold opened?
            rw [loaded, Except.toOption, Option.bind_some, attached]
            rfl
          intro done
          have same : done = (openSheet path config >>= f config).run { c with emitter } :=
            run_bind_ok (run_openProject_attached loaded attached) _
          obtain ⟨nothing, goes_on⟩ :=
            (comes_openSheet path config { c with emitter }).run_bind (f config)
          rw [there, same]
          exact ⟨nothing, fun s found => ⟨config, goes_on s found⟩⟩

/-- A command that is to show an evaluation as JSON comes to show it, or it prints nothing. -/
theorem run_shows {command : Command} (json : ShowsJson command) (c : Console) :
    (shown? c command = none → ((run command).run c).2.out = c.out) ∧
      ∀ shown, shown? c command = some shown → ∃ config ready, ready.out = c.out ∧
        ready.time = c.time ∧ (run command).run c =
          (showOutcome shown.tokens shown.ev config true shown.label).run ready := by
  cases command with
  | eval tokens sheet project json' =>
      obtain rfl : json' = true := json
      obtain ⟨nothing, goes_on⟩ := run_opened c project sheet fun config s =>
        showOutcome tokens (Formula.evaluate Sheet.resolver tokens s).evaluator config true none
      refine ⟨fun none_shown => nothing (Option.map_eq_none_iff.mp none_shown), ?_⟩
      rintro shown there
      obtain ⟨s, opened, rfl⟩ := Option.map_eq_some_iff.mp there
      exact goes_on s opened
  | cell label sheet project json' =>
      obtain rfl : json' = true := json
      obtain ⟨nothing, goes_on⟩ := run_opened c project (some sheet) fun config s =>
        showCell s label config true
      have same : run (.cell label sheet project true) = _ := runCell_eq label sheet project true
      have shows : shown? c (.cell label sheet project true) =
          (opened? c project (some sheet)).bind fun s =>
            (s.evaluateCell label {}).toOption.map fun (ev, _) =>
              ⟨s.formulaOf label, ev, some label⟩ :=
        rfl
      rw [same, shows]
      cases opened : opened? c project (some sheet) with
      | none => exact ⟨fun _ => nothing opened, fun _ absurd => nomatch absurd⟩
      | some s =>
          obtain ⟨config, ready, out, time, ran⟩ := goes_on s opened
          rw [ran, Option.bind_some]
          unfold showCell
          cases s.evaluateCell label {} with
          | error e => exact ⟨fun _ => out, fun _ absurd => nomatch absurd⟩
          | ok done =>
              refine ⟨fun absurd => (nomatch absurd), ?_⟩
              rintro _ ⟨⟩
              exact ⟨config, ready, out, time, rfl⟩
  | _ => exact json.elim

/-- Showing an evaluation as JSON prints it, and its event is emitted before. -/
theorem run_showOutcome_json (shown : Shown) (config : Config) (c : Console) :
    let done := ((showOutcome shown.tokens shown.ev config true shown.label).run c).2
    done.out = c.out ++ printed (outcomeValue shown.tokens shown.ev shown.label) ∧
      Emits done.emitter.log (shown.event c.time) c.files done.files := by
  intro done
  have ran : (showOutcome shown.tokens shown.ev config true shown.label).run c = _ :=
    run_showOutcome shown.tokens true nofun shown.label c
  replace ran := congrArg Prod.snd ran
  simp only [run_announce_json] at ran
  have log : done.emitter.log = c.emitter.log := by
    rw [show done = _ from ran]
    exact c.emitter.log_emit c.files (shown.event c.time)
  refine ⟨?_, ?_⟩
  · rw [show done = _ from ran]
    rfl
  · rw [log, show done = _ from ran]
    exact c.emitter.emits c.files (shown.event c.time)

/-! ## Command lines -/

/-- What a command leaves that has shown an evaluation as JSON. It has printed a text of strict JSON
that reads as the evaluation, and exactly so if no halves in its texts are pairs. The line of the
event about the evaluation is strict JSON, and has been added to the log if there is one and this
can be done. -/
structure ShownStrictly (shown : Shown) (c after : Console) : Prop where
  out : ∃ text result, after.out = c.out ++ (String.ofList text ++ "\n") ∧ Json.IsStrict text ∧
    GivenAs shown.ev.result result ∧
    Json.read text = .ok (.mapping (shown.fields result Text.paired)) ∧
    ((∀ t ∈ shown.ev.error :: shown.tokens, t.Unpaired) →
      Json.read text = .ok (.mapping (shown.fields result id)))
  event : ∃ line before, Log.line (shown.event c.time) = line ++ ['\n'] ∧ Json.IsStrict line ∧
    Emits after.emitter.log (shown.event c.time) before after.files

/-- What a command does that comes to show an evaluation. -/
theorem runLine_shows {args : List Text} {c : Console} {command : Command}
    (asks : Asks args c.files command) (json : ShowsJson command) {shown : Shown}
    (shows : shown? c command = some shown) :
    let after := (runLine args c).console
    after.out = c.out ++ printed (outcomeValue shown.tokens shown.ev shown.label) ∧
      ∃ before, Emits after.emitter.log (shown.event c.time) before after.files := by
  intro after
  obtain ⟨line, read, asked⟩ := asks
  obtain ⟨config, ready, out, time, ran⟩ := (run_shows json c).2 shown shows
  obtain ⟨printed, emits⟩ := run_showOutcome_json shown config ready
  rw [← ran] at printed emits
  rw [out] at printed
  rw [time] at emits
  have same : after = ((run command).run c).2 := by
    show (runLine args c).console = _
    rw [runLine_eq read asked]
    rfl
  rw [same]
  exact ⟨printed, _, emits⟩

/-- **Evaluations are shown as strict JSON.** A command line that is to show an evaluation as JSON
either comes to none and prints nothing, or leaves it shown strictly, whatever it came to. -/
theorem shown_strictly {args : List Text} {c : Console} {command : Command}
    (asks : Asks args c.files command) (json : ShowsJson command) :
    (shown? c command = none → (runLine args c).console.out = c.out) ∧
      ∀ shown, shown? c command = some shown →
        ShownStrictly shown c (runLine args c).console := by
  constructor
  · intro none_shown
    obtain ⟨line, read, asked⟩ := asks
    rw [runLine_eq read asked]
    exact (run_shows json c).1 none_shown
  · intro shown shows
    obtain ⟨out, before, emits⟩ := runLine_shows asks json shows
    have read := read_shown (paired_shown shows)
    refine ⟨⟨_, _, out, ?_, givenAs_logged _, read, ?_⟩, _, before, rfl, ?_, emits⟩
    · rw [outcomeValue_eq]
      exact Json.strict_write .indented (isFinite_fields shown)
    · intro unpaired
      rw [read, fields_unpaired _ unpaired]
    · exact Journal.Event.strict_line_ofOutcome _ _ _ _ _

/-- The infinite result of a division is given by its name. -/
theorem given_infinite {v : Value} (given : GivenAs .infinite v) : v = .text "inf" := by
  have infinite : (1 / 0 : Float).isFinite = false := by decide +kernel
  cases given with
  | finite finite => exact absurd (finite.symm.trans infinite) nofun
  | above _ _ => rfl
  | below _ below => exact absurd below (by decide +kernel)
  | none nan => exact absurd nan (by decide +kernel)

/-- A division by zero is shown with the name of its result. -/
theorem shown_strictly_quotient :
    let c : Console := { files := blankFile, time := noon }
    let args := evalLine ["1", "/", "0"] "sheet.yaml" none true
    let command := Command.eval ["1", "/", "0"] (some "sheet.yaml") defaultProject true
    let shown : Shown := ⟨["1", "/", "0"], ⟨.infinite, Formula.divideByZero⟩, none⟩
    Asks args c.files command ∧ ShowsJson command ∧ shown? c command = some shown ∧
      (∃ text, (runLine args c).console.out = c.out ++ (String.ofList text ++ "\n") ∧
        Json.IsStrict text ∧ Json.read text = .ok (.mapping
          [(.text "tokens", .list [.text "1", .text "/", .text "0"]), (.text "result", .text "inf"),
            (.text "error", .text "divideByZero")])) ∧
      ∃ line before, Log.line (shown.event noon) = line ++ ['\n'] ∧ Json.IsStrict line ∧
        Emits (runLine args c).console.emitter.log (shown.event noon) before
          (runLine args c).console.files := by
  intro c args command shown
  have asks : Asks args c.files command :=
    ⟨_, read_evalLine _ "sheet.yaml" none true, command_eval true opens_blankFile.toFound _⟩
  have shows : shown? c command = some shown := by
    have opened : opened? c defaultProject (some "sheet.yaml") = some blankSheet := by
      obtain ⟨rows, cols, size, loaded⟩ := opens_blankFile.loads
      have sheet : sheetOf? c.files Config.default (some "sheet.yaml") = some blankSheet := by
        unfold sheetOf?
        rw [size]
        show (Sheet.load blankFile (.ofText "sheet.yaml") rows cols).toOption = _
        rw [loaded]
        rfl
      exact sheet
    show (opened? c defaultProject (some "sheet.yaml")).map _ = _
    rw [opened]
    rfl
  obtain ⟨⟨text, result, out, strict, given, _, exact⟩, emitted⟩ :=
    (shown_strictly asks rfl).2 shown shows
  obtain rfl := given_infinite given
  exact ⟨asks, rfl, shows, ⟨text, out, strict, exact (by decide)⟩, emitted⟩

/-- The halves of a pair in an error do not come back from what is printed. -/
theorem halves_shown_as_face :
    let c := atDesk none
    let command := Command.eval ["A1"] (some "faces.yaml") defaultProject true
    let shown : Shown := ⟨["A1"], ⟨.blank, halves⟩, none⟩
    Asks (facesLine "A1") c.files command ∧ ShowsJson command ∧ shown? c command = some shown ∧
      ∀ text result,
        (runLine (facesLine "A1") c).console.out = c.out ++ (String.ofList text ++ "\n") →
          Json.read text ≠ .ok (.mapping (shown.fields result id)) := by
  intro c command shown
  have r := run_faces none "A1"
  have shows : shown? c command = some shown := by
    have opened : opened? c defaultProject (some "faces.yaml") = some facesSheet := by
      have sheet := sheetOf_desk none
      exact sheet
    obtain ⟨error, result⟩ := evaluate_halves
    have evaluated :
        (Formula.evaluate Sheet.resolver ["A1"] facesSheet).evaluator = ⟨.blank, halves⟩ := by
      rw [← error, ← result]
    show (opened? c defaultProject (some "faces.yaml")).map _ = _
    rw [opened, Option.map_some, evaluated]
  refine ⟨r.line, rfl, shows, ?_⟩
  intro text result out read
  obtain rfl := printed_inj (out.symm.trans (runLine_shows r.line rfl shows).1)
  have other := read_shown (paired_shown shows)
  rw [read] at other
  have errors :=
    congrArg (Entries.get? (Key.text "error")) (Value.mapping.inj (Except.ok.inj other))
  have same : halves = halves.paired := Value.text.inj (Option.some.inj errors)
  exact absurd same (by decide)

end SheetCalc.Command
