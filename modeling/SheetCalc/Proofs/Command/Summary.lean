import Mathlib.Data.List.Permutation
import SheetCalc.Proofs.Command.Session

/-!
# The summary of a session

The summary in JSON that a command line shows behind a session is the tally of the evaluations of
the session (`summary_tallies`): it has the name of each error that came up, with the number of
times. The name is the error as it comes back from JSON, where the two halves of a surrogate pair
are the character that they make up. So two errors can have one name (`halves_counted_as_face`).
-/

namespace SheetCalc.Command

open Procedure (run_bind run_bind_ok)
open Journal (Log tallyOf texted)
open Journal.Event (outcomeName)
open Text.Utf8 (encode)

/-! ## What is shown -/

/-- The log of a project is not longer than what is read of it. -/
def ReadsWhole (directory : Path) (config : Config) (fs : Files) : Prop :=
  ∀ tail bytes, Journal.tailOf config = .ok tail →
    fs.read (Log.path { project := directory }) = .ok bytes → (bytes.length : Int) ≤ tail

/-- A summary in JSON shows what the log counts as. -/
theorem run_summary {directory : Path} {config : Config} {args : List Text} {project : Text}
    {filter : Journal.Filter} {limit : Int} {c : Console}
    (r : Run directory config args (.events project filter limit true true) c) {names : List Text}
    (counts : Log.Counts { project := directory } names c.files)
    (whole : ReadsWhole directory config c.files)
    {sorted : List (Key × Nat)} (order : Key.sorted? (texted (tallyOf names)) = some sorted) :
    (runLine args c).exitCode = 0 ∧
      (runLine args c).console.out =
        c.out ++ printed (.mapping (sorted.map fun (k, n) => (k, .int n))) := by
  obtain ⟨tail, sound, opens⟩ := r.opens
  obtain ⟨other, asked, same⟩ := r.project
  obtain rfl : project = other := Option.some.inj asked
  have tallied : Journal.tally { project := Path.ofText project, tail } c.files =
      .ok (texted (tallyOf names)) := by
    rw [same]
    exact Journal.tally_of_counts counts fun bytes => whole tail bytes sound
  have ran : (run (.events project filter limit true true)).run c =
      (print (.ofChars (Json.indentedText (.mapping (sorted.map fun (k, n) => (k, .int n)))))).run
        (c.sending { project := directory, tail }) := by
    unfold run runEvents
    rw [run_bind_ok (opens project rfl), run_bind_ok (run_orFault_ok _ sound _)]
    show ((orFault .log (Journal.tally { project := Path.ofText project, tail } c.files) >>=
      fun counts => showTally counts true : Action Unit)).run (c.sending _) = _
    rw [run_bind_ok (run_orFault_ok _ tallied _)]
    unfold showTally
    rw [if_pos rfl, order]
  rw [r.runLine_eq, ran, run_print_value]
  exact ⟨rfl, String.append_assoc.symm ▸ rfl⟩

/-- Of lines that are printed the same, the texts are the same. -/
theorem printed_inj {before : String} {cs ds : List Char}
    (same : before ++ (String.ofList cs ++ "\n") = before ++ (String.ofList ds ++ "\n")) :
    cs = ds := by
  have texts := congrArg String.toList same
  simp only [String.toList_append, String.toList_ofList, List.append_cancel_left_eq,
    List.append_cancel_right_eq] at texts
  exact texts

/-! ## Tallies -/

/-- A mapping that has each of some names as a key, with the number of times it is there, and no
other keys. -/
structure Tallies (names : List Text) (counts : Entries Key Value) : Prop where
  nodup : counts.keys.Nodup
  members : ∀ k v, (k, v) ∈ counts ↔
    ∃ (t : Text) (n : Nat), k = .text t ∧ v = .int n ∧ 0 < n ∧ names.count t = n

/-- The counts of names in their order are the tally of the names. -/
theorem tallies_sorted (names : List Text) :
    ∃ sorted, Key.sorted? (texted (tallyOf names)) = some sorted ∧
      Tallies names (sorted.map fun (k, n) => (k, .int n)) := by
  obtain ⟨sorted, order, nodup, members⟩ := Journal.sorted_tallyOf names
  refine ⟨sorted, order, ?_, ?_⟩
  · have keys : Entries.keys (sorted.map fun (k, n) => (k, Value.int n)) = sorted.keys := by
      unfold Entries.keys
      rw [List.map_map]
      rfl
    rw [keys]
    exact nodup
  · intro k v
    rw [List.mem_map]
    constructor
    · rintro ⟨⟨l, n⟩, there, same⟩
      obtain ⟨rfl, rfl⟩ := Prod.mk.inj same
      obtain ⟨t, named, positive, times⟩ := (members l n).mp there
      exact ⟨t, n, named, rfl, positive, times⟩
    · rintro ⟨t, n, rfl, rfl, positive, times⟩
      exact ⟨(.text t, n), (members _ n).mpr ⟨t, rfl, positive, times⟩, rfl⟩

/-- The tally of two names that are not the same has each of them once. -/
theorem Tallies.perm_pair {s t : Text} (distinct : s ≠ t) {counts : Entries Key Value}
    (tallies : Tallies [s, t] counts) : counts.Perm [(.text s, .int 1), (.text t, .int 1)] := by
  have once : ∀ u, [s, t].count u = if u = s ∨ u = t then 1 else 0 := by
    intro u
    simp only [List.count_cons, List.count_nil, beq_iff_eq]
    grind
  refine (List.perm_ext_iff_of_nodup tallies.nodup.of_map ?_).mpr ?_
  · simp [distinct]
  · rintro ⟨k, v⟩
    rw [tallies.members]
    constructor
    · rintro ⟨u, n, rfl, rfl, positive, times⟩
      rw [once] at times
      split at times
      · next named => rcases named with rfl | rfl <;> simp [← times]
      · omega
    · intro there
      simp only [List.mem_cons, List.not_mem_nil, or_false, Prod.mk.injEq] at there
      rcases there with ⟨rfl, rfl⟩ | ⟨rfl, rfl⟩
      · exact ⟨s, 1, rfl, rfl, Nat.one_pos, by simp [once]⟩
      · exact ⟨t, 1, rfl, rfl, Nat.one_pos, by simp [once]⟩

/-- **The summary is the tally of the evaluations.** In a project that had no log, after a session
with any errors, the summary in JSON is a mapping that has as its keys the names of these errors,
each once, with the number of evaluations that ended with an error of that name: `ok` if there was
none, or else the error as it comes back from JSON. An evaluation succeeds exactly if it has no
error. -/
theorem summary_tallies :
    (∀ (directory : Path) (errors : List Text) (config : Config) (args : List Text) (project : Text)
      (filter : Journal.Filter) (limit : Int) (c : Console), Session directory errors c.files →
      Run directory config args (.events project filter limit true true) c →
      ReadsWhole directory config c.files →
      (runLine args c).exitCode = 0 ∧
        ∃ counts, (runLine args c).console.out = c.out ++ printed (.mapping counts) ∧
          Tallies (errors.map outcomeName) counts) ∧
    ∀ (directory : Path) (config : Config) (args : List Text) (command : Command) (c : Console)
      (ev : Formula.Evaluator), Run directory config args command c →
      evaluation? c.files config command = some ev →
      ((runLine args c).exitCode = 0 ↔ ev.error.isEmpty = true) := by
  constructor
  · intro directory errors config args project filter limit c session r whole
    obtain ⟨sorted, order, tallies⟩ := tallies_sorted (errors.map outcomeName)
    obtain ⟨ended, out⟩ := run_summary r (counts_session session) whole order
    exact ⟨ended, _, out, tallies⟩
  · intro directory config args command c ev r evaluates
    exact r.exitCode evaluates

/-! ### An error that is a character and one that is its halves -/

/-- The two halves of a surrogate pair. -/
def halves : Text := ⟨[⟨0xd83d, by decide⟩, ⟨0xde00, by decide⟩]⟩

/-- The character that they make up. -/
def face : Text := ⟨[⟨0x1f600, by decide⟩]⟩

/-- A sheet whose cells have these as their errors. -/
def facesText : List Char :=
  "cells:\n  A1: \x7berror: \"\\ud83d\\ude00\"\x7d\n  B1: \x7berror: \"\\U0001f600\"\x7d\n".toList

def facesSpec : List (Key × Value) :=
  [(.text "cells", .mapping
    [(.text "A1", .mapping [(.text "error", .text halves)]),
     (.text "B1", .mapping [(.text "error", .text face)])])]

theorem read_faces : Yaml.read facesText = .ok (.mapping facesSpec) := by
  let plain (s : String) : Yaml.Node := .plain s.toList
  let node : Yaml.Node := .mapping
    [(plain "cells", .mapping
      [(plain "A1", .mapping [(plain "error", .quoted halves)]),
        (plain "B1", .mapping [(plain "error", .quoted face)])])]
  have parsed : Yaml.Node.ofText? (Text.unifyBreaks facesText) = .ok (some node) := by
    decide +kernel
  exact Yaml.read_of_node parsed (by decide +kernel) rfl

def facesSheet : Sheet :=
  { blankSheet with
    cells := [{ label := "A1", error := halves }, { label := "B1", error := face }] }

theorem labels_faces : facesSheet.labels.length = 2 := by
  rw [Sheet.labels, List.length_map, Sheet.sortedCells, List.length_mergeSort]
  rfl

theorem countable_faces : Decimal.isWritable facesSheet.labels.length = true := by
  rw [labels_faces]
  decide +kernel

theorem evaluate_halves :
    let ev := (Formula.evaluate Sheet.resolver ["A1"] facesSheet).evaluator
    ev.error = halves ∧ ev.result = .blank := ⟨by rfl, by rfl⟩

theorem evaluate_face :
    let ev := (Formula.evaluate Sheet.resolver ["B1"] facesSheet).evaluator
    ev.error = face ∧ ev.result = .blank := ⟨by rfl, by rfl⟩

/-- The files around the sheet, with a log if anything has been written to it. -/
def desk (logged : Option (List UInt8)) : Files :=
  { nodes := (["faces.yaml"], .file (encode facesText)) ::
      match logged with
      | none => []
      | some bytes => [(["logs"], .dir), (["logs", "events.ndjson"], .file bytes)] }

theorem append_desk (tail : Int) (logged : Option (List UInt8)) (e : Journal.Event) :
    (({ project := .ofText ".", tail } : Log).append e).run (desk logged) =
      (.ok (), desk (some (logged.getD [] ++ encode (Log.line e)))) := by
  cases logged <;> rfl

theorem holds_desk (logged : Option (List UInt8)) :
    (desk logged).Holds (.ofText "faces.yaml") (encode facesText) :=
  ⟨["faces.yaml"], by cases logged <;> rfl, by cases logged <;> rfl⟩

theorem configured_desk (logged : Option (List UInt8)) :
    Config.load (desk logged) (.ofText ".") = .ok Config.default := by
  cases logged <;> rfl

theorem fresh_desk : Log.Fresh { project := .ofText "." } (desk none) :=
  .inr ⟨by rfl, by rfl⟩

theorem load_desk (logged : Option (List UInt8)) :
    Sheet.load (desk logged) (.ofText "faces.yaml") 100 26 = .ok facesSheet := by
  rw [Sheet.load_eq (holds_desk logged), show Text.unifyBreaks facesText = facesText from rfl,
    read_faces]
  rfl

theorem sheetOf_desk (logged : Option (List UInt8)) :
    sheetOf? (desk logged) Config.default (some "faces.yaml") = some facesSheet := by
  unfold sheetOf?
  rw [sizeOf_default]
  show (Sheet.load (desk logged) (.ofText "faces.yaml") 100 26).toOption = _
  rw [load_desk]
  rfl

/-- The time of the runs. -/
def noon : Text := "2024-01-02T03:04:05.000006Z"

def atDesk (logged : Option (List UInt8)) : Console :=
  { files := desk logged, time := noon }

abbrev facesLine (label : Text) : List Text :=
  evalLine [label] "faces.yaml" none true

theorem run_faces (logged : Option (List UInt8)) (label : Text) :
    Run (.ofText ".") Config.default (facesLine label)
      (.eval [label] (some "faces.yaml") defaultProject true) (atDesk logged) := by
  have found : Found (desk logged) "faces.yaml" none :=
    ⟨by cases logged <;> rfl, fun _ absurd => nomatch absurd⟩
  refine ⟨⟨_, read_evalLine [label] "faces.yaml" none true, command_eval true found [label]⟩,
    ⟨defaultProject, rfl, rfl⟩, rfl, configured_desk logged, wellFormed_default, ?_⟩
  intro file s _ loaded
  have same : s = facesSheet := Option.some.inj (loaded.symm.trans (sheetOf_desk logged))
  rw [same]
  exact countable_faces

theorem evaluation_faces (logged : Option (List UInt8)) (label : Text) :
    evaluation? (desk logged) Config.default
        (.eval [label] (some "faces.yaml") defaultProject true) =
      some (Formula.evaluate Sheet.resolver [label] facesSheet).evaluator := by
  show (sheetOf? (desk logged) Config.default (some "faces.yaml")).bind _ = _
  rw [sheetOf_desk]
  rfl

theorem emit_desk {c : Console} {logged : Option (List UInt8)} (tail : Int)
    (files : c.files = desk logged) (sends : c.emitter.log = some { project := .ofText ".", tail })
    (event : Text → Journal.Event) (storable : (event c.time).Storable) :
    ∃ d, (emit event).run c = (.ok (), d) ∧
      d.files = desk (some (logged.getD [] ++ encode (Log.line (event c.time)))) ∧
      d.emitter = c.emitter ∧ d.time = c.time := by
  have emitted : c.emitter.emit c.files (event c.time) =
      ⟨desk (some (logged.getD [] ++ encode (Log.line (event c.time)))), c.emitter, false⟩ := by
    have written := Log.write_ok.mpr ⟨storable.fits, append_desk tail logged (event c.time)⟩
    unfold Journal.Emitter.emit
    rw [sends, files]
    simp only [written]
  refine ⟨_, run_emit event c, ?_⟩
  rw [emitted]
  exact ⟨rfl, rfl, rfl⟩

/-- The bytes of the log after a run on a cell. -/
def loggedAfter (logged : Option (List UInt8)) (label : Text) : List UInt8 :=
  let ev := (Formula.evaluate Sheet.resolver [label] facesSheet).evaluator
  logged.getD [] ++
    encode (Log.line (.sheetLoaded noon "faces.yaml" (some facesSheet.labels.length)))
    ++ encode (Log.line (.ofOutcome noon [label] ev.result ev.error none))

theorem runLine_faces (logged : Option (List UInt8)) (label : Text) :
    let done := runLine (facesLine label) (atDesk logged)
    done.console.files = desk (some (loggedAfter logged label)) ∧
      done.console.emitter.warned = false := by
  intro done
  have r := run_faces logged label
  obtain ⟨tail, _, opens⟩ := r.opens
  let ev := (Formula.evaluate Sheet.resolver [label] facesSheet).evaluator
  -- The sheet is loaded, and that is written to the log.
  let start := (atDesk logged).sending { project := .ofText ".", tail }
  obtain ⟨c, emitted, loaded_files, loaded_emitter, time⟩ := emit_desk (c := start) tail rfl rfl
    (fun time => .sheetLoaded time "faces.yaml" (some facesSheet.labels.length))
    (Journal.Event.storable_sheetLoaded _ _ countable_faces)
  have opened : (openSheet (some "faces.yaml") Config.default).run start = (.ok facesSheet, c) := by
    rw [run_openSheet sizeOf_default]
    show (loadSheet "faces.yaml" 100 26).run start = _
    rw [run_loadSheet (load_desk logged), emitted]
  -- What the evaluation came to is written after it.
  obtain ⟨d, shown, files, emitter, _⟩ := emit_desk tail loaded_files
    (by rw [loaded_emitter]; rfl) (fun time => .ofOutcome time [label] ev.result ev.error none)
    (Journal.Event.storable_ofOutcome _ _ _ _ _)
  have quiet : Quiet (do announce [label] ev Config.default true none; verdict ev) :=
    (quiet_announce [label] ev Config.default true none).bind fun _ => quiet_verdict ev
  have ran : (run (.eval [label] (some "faces.yaml") defaultProject true)).run (atDesk logged) =
      (do announce [label] ev Config.default true none; verdict ev : Action Unit).run d := by
    unfold run runEval
    rw [run_bind_ok (opens defaultProject rfl), run_bind_ok opened]
    show (showOutcome [label] ev Config.default true none).run c = _
    rw [showOutcome_eq, run_bind_ok shown]
  obtain ⟨kept, calm⟩ := quiet d
  have same : done.console = ((do
      announce [label] ev Config.default true none
      verdict ev : Action Unit).run d).2 := by
    show (runLine (facesLine label) (atDesk logged)).console = _
    rw [r.runLine_eq, ran]
    rfl
  rw [same, kept, calm, files, emitter, loaded_emitter, time]
  exact ⟨rfl, rfl⟩

theorem session_concat {errors : List Text} {logged : Option (List UInt8)}
    (session : Session (.ofText ".") errors (desk logged)) (label : Text) :
    Session (.ofText ".")
      (errors ++ [(Formula.evaluate Sheet.resolver [label] facesSheet).evaluator.error])
      (desk (some (loggedAfter logged label))) := by
  obtain ⟨files, calm⟩ := runLine_faces logged label
  have longer := Session.run (c := atDesk logged) session (run_faces logged label) calm
  have evaluated : evaluation? (atDesk logged).files Config.default
      (.eval [label] (some "faces.yaml") defaultProject true) = _ := evaluation_faces logged label
  rw [files, evaluated] at longer
  exact longer

/-- The bytes of the log after a run on each of the two cells. -/
def afterBoth : List UInt8 := loggedAfter (some (loggedAfter none "A1")) "B1"

theorem session_faces : Session (.ofText ".") [halves, face] (desk (some afterBoth)) := by
  have both := session_concat (session_concat (.fresh fresh_desk) "A1") "B1"
  rw [evaluate_halves.1, evaluate_face.1] at both
  exact both

/-- The command line that shows the summary in JSON. -/
abbrev summaryLine : List Text := ["events", "--summary", "--json"]

theorem read_summaryLine : Line.read? summaryLine =
    some (.verb .events ⟨[("--summary", none), ("--json", none)], []⟩) := by
  have verb : Verb.ofName? "events" = some .events := by decide
  have isName_summary : Arguments.IsName "--summary" := by
    unfold Arguments.IsName
    decide
  have read : Arguments.read? Verb.events.options ["--summary", "--json"] =
      some ⟨[("--summary", none), ("--json", none)], []⟩ := by
    unfold Arguments.read?
    rw [Arguments.readFrom_switch isName_summary (by decide) (by decide),
      Arguments.readFrom_switch Arguments.isName_json (by decide) (by decide), Arguments.readFrom]
    rfl
  have named : Line.read? summaryLine = Line.readVerb? summaryLine := rfl
  rw [named]
  simp [Line.readVerb?, verb, read]

theorem run_summaryLine (logged : Option (List UInt8)) :
    Run (.ofText ".") Config.default summaryLine (.events defaultProject {} 20 true true)
      (atDesk logged) := by
  refine ⟨⟨_, read_summaryLine, ?_⟩, ⟨defaultProject, rfl, rfl⟩, rfl, configured_desk logged,
    wellFormed_default, nofun⟩
  cases logged <;> rfl

theorem length_line_le (e : Journal.Event) :
    (encode (Log.line e)).length ≤ 4 * ((Json.lineText e.toValue).length + 1) := by
  have sorted := Json.length_write_sortKeys .line 0 e.toValue
  refine (Text.Utf8.length_encode_le _).trans (Nat.mul_le_mul_left 4 ?_)
  unfold Log.line
  rw [List.length_append]
  exact Nat.add_le_add_right (Nat.le_of_eq sorted) 1

theorem length_lines :
    (encode (Log.line (.sheetLoaded noon "faces.yaml" (some 2)))).length ≤ 4000 ∧
      (encode (Log.line (.ofOutcome noon ["A1"] .blank halves none))).length ≤ 4000 ∧
      (encode (Log.line (.ofOutcome noon ["B1"] .blank face none))).length ≤ 4000 := by
  refine ⟨?_, ?_, ?_⟩ <;> exact (length_line_le _).trans (by decide +kernel)

theorem length_afterBoth : afterBoth.length ≤ 16000 := by
  obtain ⟨error_halves, result_halves⟩ := evaluate_halves
  obtain ⟨error_face, result_face⟩ := evaluate_face
  obtain ⟨loaded, first, second⟩ := length_lines
  unfold afterBoth loggedAfter
  rw [labels_faces]
  simp only [error_halves, error_face, result_halves, result_face, Option.getD_some,
    Option.getD_none, List.nil_append, List.length_append]
  push_cast
  omega

theorem readsWhole_desk :
    ReadsWhole (.ofText ".") Config.default (desk (some afterBoth)) := by
  intro tail bytes sound there
  have short := length_afterBoth
  obtain rfl : 2097152 = tail := Except.ok.inj sound
  obtain rfl : afterBoth = bytes := Except.ok.inj there
  omega

/-- The two errors are counted as one: the log has the halves of the pair as the character that they
make up. -/
theorem summary_tallies_faces :
    let c := atDesk (some afterBoth)
    let first := runLine (facesLine "A1") (atDesk none)
    Session (.ofText ".") [halves, face] c.files ∧
      Run (.ofText ".") Config.default summaryLine (.events defaultProject {} 20 true true) c ∧
      ReadsWhole (.ofText ".") Config.default c.files ∧
      (runLine summaryLine c).exitCode = 0 ∧
      (∃ counts, (runLine summaryLine c).console.out = c.out ++ printed (.mapping counts) ∧
        Tallies [face, face] counts) ∧
      (first.exitCode = 0 ↔ halves.isEmpty = true) := by
  intro c first
  have r := run_summaryLine (some afterBoth)
  obtain ⟨ended, tallied⟩ :=
    summary_tallies.1 (.ofText ".") [halves, face] Config.default summaryLine
    defaultProject {} 20 c session_faces r readsWhole_desk
  have ending := summary_tallies.2 (.ofText ".") Config.default (facesLine "A1") _ (atDesk none) _
    (run_faces none "A1") (evaluation_faces none "A1")
  rw [evaluate_halves.1] at ending
  exact ⟨session_faces, r, readsWhole_desk, ended, tallied, ending⟩

/-- The summary does not have the two errors themselves as its keys. -/
theorem halves_counted_as_face :
    let c := atDesk (some afterBoth)
    Session (.ofText ".") [halves, face] c.files ∧
      Run (.ofText ".") Config.default summaryLine (.events defaultProject {} 20 true true) c ∧
      ReadsWhole (.ofText ".") Config.default c.files ∧
      ¬ ∃ counts, (runLine summaryLine c).console.out = c.out ++ printed (.mapping counts) ∧
        Tallies ([halves, face].map fun e => if e.isEmpty then Journal.successName else e)
          counts := by
  intro c
  have r := run_summaryLine (some afterBoth)
  refine ⟨session_faces, r, readsWhole_desk, ?_⟩
  rintro ⟨counts, out, tallies⟩
  have named : [halves, face].map outcomeName = [face, face] := by decide
  have same : [halves, face].map (fun e => if e.isEmpty then (Journal.successName : Text) else e) =
      [halves, face] := by decide
  have counts_two := counts_session session_faces
  rw [named] at counts_two
  have order : Key.sorted? (texted (tallyOf [face, face])) = some [(.text face, 2)] := by
    have one : texted (tallyOf [face, face]) = [(.text face, 2)] := by rfl
    rw [one]
    exact congrArg some (List.perm_singleton.mp (Sorting.sortBy_perm _ _))
  obtain ⟨_, shown⟩ := run_summary r counts_two readsWhole_desk order
  rw [same] at tallies
  have same_length := congrArg List.length (printed_inj (out.symm.trans shown))
  have summary_length : (Json.indentedText (.mapping [(.text face, .int 2)])).length = 23 := by
    decide +kernel
  rcases List.perm_pair.mp (tallies.perm_pair (by decide)) with rfl | rfl
  · have length : (Json.indentedText
        (.mapping [(.text halves, .int 1), (.text face, .int 1)])).length = 44 := by
      decide +kernel
    exact absurd (length.symm.trans (same_length.trans summary_length)) (by decide)
  · have length : (Json.indentedText
        (.mapping [(.text face, .int 1), (.text halves, .int 1)])).length = 44 := by
      decide +kernel
    exact absurd (length.symm.trans (same_length.trans summary_length)) (by decide)

end SheetCalc.Command
