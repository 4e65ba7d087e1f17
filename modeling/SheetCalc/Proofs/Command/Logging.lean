import SheetCalc.Proofs.Command.Agreement
import SheetCalc.Proofs.Journal.Failures
import SheetCalc.Proofs.Journal.Outcomes

/-!
# What commands write to the log

A command writes to the log nothing but the events that it emits. As long as no warning comes up,
each of them is added, so that the log afterwards counts as what it did before and what the events
count as (`Logs`). Loading a sheet counts as nothing; showing how an evaluation came out counts as
the name of its error (`logs_showOutcome`). All other parts of commands leave the files alone
(`Quiet`).

The parts by which events are shown print and break off, and do nothing else; what holds of these
two holds of all of them (`OfShowing`).
-/

namespace SheetCalc.Command

open Procedure (run_bind run_bind_ok run_bind_error)
open Journal (Log)

variable {α β : Type}

/-! ## Parts that write nothing -/

/-- A part of a command that leaves the files and the emitter as they are. -/
def Quiet (a : Action α) : Prop :=
  ∀ c : Console, (a.run c).2.files = c.files ∧ (a.run c).2.emitter = c.emitter

theorem quiet_pure (a : α) : Quiet (pure a : Action α) := fun _ => ⟨rfl, rfl⟩

theorem quiet_stop (s : Stop) : Quiet (stop s : Action α) := fun _ => ⟨rfl, rfl⟩

theorem quiet_get : Quiet (get : Action Console) := fun _ => ⟨rfl, rfl⟩

theorem Quiet.bind {a : Action α} {f : α → Action β} (first : Quiet a) (rest : ∀ x, Quiet (f x)) :
    Quiet (a >>= f) := by
  intro c
  obtain ⟨files, emitter⟩ := first c
  rw [run_bind]
  generalize a.run c = done at files emitter ⊢
  obtain ⟨_ | x, after⟩ := done
  · exact ⟨files, emitter⟩
  · obtain ⟨files', emitter'⟩ := rest x after
    exact ⟨files'.trans files, emitter'.trans emitter⟩

theorem quiet_orFault {ε : Type} (fault : ε → Fault) (r : Except ε α) :
    Quiet (orFault fault r) := by
  intro c
  rw [run_orFault]
  exact ⟨rfl, rfl⟩

theorem quiet_print (t : Text) : Quiet (print t) := by
  intro c
  unfold print
  split <;> exact ⟨rfl, rfl⟩

theorem quiet_printError (t : Text) : Quiet (printError t) := fun _ => ⟨rfl, rfl⟩

theorem quiet_report (message : Text) : Quiet (report message : Action α) :=
  (quiet_printError _).bind fun _ => quiet_stop _

/-- What is wrong with the log, also with an event in it that is to be shown. -/
def Fault.OfLog : Fault → Prop
  | .log e => e.OfLog
  | .notText _ | .mixedCodes | .unprintable => True
  | _ => False

/-- A property of parts of commands that holds of those by which events are shown: of printing, of
breaking off over the log, and of what is put together from parts of which it holds. -/
structure OfShowing (Q : (α : Type) → Action α → Prop) : Prop where
  pure : ∀ {α : Type} (a : α), Q α (pure a)
  bind : ∀ {α β : Type} {a : Action α} {f : α → Action β}, Q α a → (∀ x, Q β (f x)) → Q β (a >>= f)
  print : ∀ t, Q Unit (print t)
  breaks : ∀ {α : Type} (f : Fault), f.OfLog → Q α (stop (.broken f))

namespace OfShowing

variable {Q : (α : Type) → Action α → Prop} (parts : OfShowing Q)

include parts

theorem orFault {r : Except Journal.LogError α} (fails : FailsBy Journal.LogError.OfLog r) :
    Q α (orFault .log r) := by
  cases r with
  | ok a => exact parts.pure a
  | error e => exact parts.breaks (.log e) (fails e rfl)

/-- What is done for one item after another is put together from the steps. -/
theorem forIn {γ : Type} {f : γ → β → Action (ForInStep β)} (steps : ∀ x b, Q (ForInStep β) (f x b))
    (xs : List γ) (b : β) : Q β (forIn xs b f) := by
  induction xs generalizing b with
  | nil => exact parts.pure b
  | cons x xs ih =>
      rw [List.forIn_cons]
      refine parts.bind (steps x b) fun next => ?_
      cases next with
      | done b => exact parts.pure b
      | yield b => exact ih b

theorem showTally (counts : Entries Key Nat) (json : Bool) : Q Unit (showTally counts json) := by
  unfold Command.showTally
  split
  · split
    · exact parts.breaks .mixedCodes trivial
    · exact parts.print _
  · split
    · exact parts.print _
    · refine parts.bind (parts.forIn (fun x b => ?_) _ _) parts.pure
      exact parts.bind (parts.print _) fun _ => parts.pure _

theorem showEvent (e : Value) : Q Unit (showEvent e) := by
  have field (name : String) : Q Value (eventField name e) :=
    parts.bind (parts.orFault (Journal.fieldOf_failsBy name e)) fun _ => parts.pure _
  have column (width : Nat) (v : Value) : Q Text (column width v) := by
    unfold Command.column
    split
    · exact parts.pure _
    · exact parts.breaks (.notText _) trivial
  refine parts.bind (field "ts") fun _ => parts.bind (field "level") fun _ => ?_
  refine parts.bind (column 7 _) fun _ => parts.bind (field "event_type") fun _ => ?_
  refine parts.bind (column 18 _) fun _ => parts.bind (field "message") fun _ => ?_
  exact parts.print _

theorem showEvents (events : List Value) (json : Bool) : Q Unit (showEvents events json) := by
  unfold Command.showEvents
  split
  · exact parts.print _
  · split
    · exact parts.print _
    · refine parts.bind (parts.forIn (fun e _ => ?_) _ _) parts.pure
      exact parts.bind (parts.showEvent e) fun _ => parts.pure _

end OfShowing

/-- Showing events writes nothing. -/
theorem quiet_ofShowing : OfShowing fun _ a => Quiet a :=
  ⟨quiet_pure, Quiet.bind, quiet_print, fun _ _ => quiet_stop _⟩

theorem quiet_announce (tokens : List Text) (ev : Formula.Evaluator) (config : Config) (json : Bool)
    (label : Option Text) : Quiet (announce tokens ev config json label) := by
  unfold announce
  split
  · exact quiet_print _
  · split
    · refine (quiet_orFault _ _).bind fun _ => ?_
      exact (quiet_orFault _ _).bind fun _ => quiet_print _
    · exact quiet_printError _

theorem quiet_verdict (ev : Formula.Evaluator) : Quiet (verdict ev) := by
  unfold verdict
  split
  · exact quiet_pure ()
  · exact quiet_stop .failed

/-! ## Parts that write to the log -/

/-- What has been done between two consoles: if there is no warning afterwards, there was none
before, and the events that were added to the log count as given names. -/
structure Logs (log : Log) (names : List Text) (c after : Console) : Prop where
  emitter : after.emitter.log = c.emitter.log
  warned : after.emitter.warned = false → c.emitter.warned = false
  counts : after.emitter.warned = false → ∀ before, log.Counts before c.files →
    log.Counts (before ++ names) after.files

section

variable {log : Log} {names more : List Text} {c d e : Console}

theorem Logs.trans (first : Logs log names c d) (second : Logs log more d e) :
    Logs log (names ++ more) c e := by
  refine ⟨second.emitter.trans first.emitter, fun calm => first.warned (second.warned calm), ?_⟩
  intro calm before counts
  rw [← List.append_assoc]
  exact second.counts calm _ (first.counts (second.warned calm) before counts)

theorem Quiet.logs {a : Action α} (quiet : Quiet a) (log : Log) (c : Console) :
    Logs log [] c (a.run c).2 := by
  obtain ⟨files, emitter⟩ := quiet c
  refine ⟨congrArg _ emitter, fun calm => emitter ▸ calm, ?_⟩
  intro _ before counts
  rw [files, List.append_nil]
  exact counts

/-- An event is added to the log, or there is a warning. -/
theorem emit_cases {em : Journal.Emitter} (sends : em.log = some log) (fs : Files)
    (event : Journal.Event) :
    (∃ after, (log.append event).run fs = (.ok (), after) ∧
        em.emit fs event = ⟨after, em, false⟩) ∨
      ∃ after, em.emit fs event = ⟨after, { em with warned := true }, !em.warned⟩ := by
  unfold Journal.Emitter.emit
  rcases ran : (log.write event).run fs with ⟨_ | _, after⟩
  · right
    simp [sends, ran]
  · left
    simp [sends, ran, (Log.write_ok.mp ran).2]

/-- An event that is emitted is added to the log. -/
theorem logs_emit (event : Text → Journal.Event) (sends : c.emitter.log = some log)
    (storable : (event c.time).Storable) :
    Logs log (event c.time).counted?.toList c ((emit event).run c).2 := by
  rw [run_emit]
  rcases emit_cases sends c.files (event c.time) with ⟨after, ran, done⟩ | ⟨after, done⟩
  · rw [done]
    refine ⟨rfl, fun calm => calm, ?_⟩
    intro _ before counts
    exact counts.append storable ran
  · rw [done]
    exact ⟨rfl, nofun, nofun⟩

/-- Reporting that a sheet was not loaded counts as nothing. -/
theorem logs_sheetFailure (sends : c.emitter.log = some log) (path : Text) {message : Text}
    (some_text : message.isEmpty = false) (code : Text) :
    ∃ s, ((sheetFailure path message code : Action α).run c).1 = .error s ∧
      Logs log [] c ((sheetFailure path message code : Action α).run c).2 := by
  have written := logs_emit (fun time => .sheetFailed time path message (some code)) sends
    (Journal.Event.storable_sheetFailed _ _ _ _)
  rw [Journal.Event.counted_sheetFailed] at written
  rw [sheetFailure_eq some_text]
  refine ⟨_, rfl, ?_⟩
  exact written.trans ((quiet_report (α := α) message).logs log _)

/-- Loading a sheet counts as nothing, whether it is loaded or not. -/
theorem logs_loadSheet (sends : c.emitter.log = some log) (path : Text) (rows cols : Int)
    (countable : ∀ s, Sheet.load c.files (.ofText path) rows cols = .ok s →
      Decimal.isWritable s.labels.length = true) :
    ((loadSheet path rows cols).run c).1.toOption =
        (Sheet.load c.files (.ofText path) rows cols).toOption ∧
      Logs log [] c ((loadSheet path rows cols).run c).2 := by
  cases loaded : Sheet.load c.files (.ofText path) rows cols with
  | ok s =>
      have written := logs_emit (fun time => .sheetLoaded time path (some s.labels.length)) sends
        (Journal.Event.storable_sheetLoaded _ _ (countable s loaded))
      rw [Journal.Event.counted_sheetLoaded] at written
      rw [run_loadSheet loaded]
      exact ⟨rfl, written⟩
  | error e =>
      rcases run_loadSheet_error loaded with ⟨message, code, some_text, ran⟩ | ⟨f, ran⟩
      · obtain ⟨s, failed, written⟩ := logs_sheetFailure (α := Sheet) sends path some_text code
        rw [ran, failed]
        exact ⟨rfl, written⟩
      · rw [ran]
        exact ⟨rfl, (quiet_stop (α := Sheet) _).logs log c⟩

/-- The sheet that a command works on: from a file, or one without cells. -/
def sheetOf? (fs : Files) (config : Config) (path : Option Text) : Option Sheet :=
  (sizeOf config).toOption.bind fun (rows, cols) =>
    match path with
    | some path => (Sheet.load fs (.ofText path) rows cols).toOption
    | none => (Sheet.ofSize rows cols).toOption

/-- Opening the sheet counts as nothing. -/
theorem logs_openSheet (sends : c.emitter.log = some log) {config : Config}
    (size : ∃ rows cols, sizeOf config = .ok (rows, cols)) (path : Option Text)
    (countable : ∀ file s, path = some file → sheetOf? c.files config path = some s →
      Decimal.isWritable s.labels.length = true) :
    ((openSheet path config).run c).1.toOption = sheetOf? c.files config path ∧
      Logs log [] c ((openSheet path config).run c).2 := by
  obtain ⟨rows, cols, size⟩ := size
  unfold sheetOf? at countable ⊢
  rw [size] at countable ⊢
  rw [run_openSheet size]
  cases path with
  | none =>
      have same (r : Except SizeError Sheet) :
          ((orFault .size r : Action Sheet).run c).1.toOption = r.toOption := by
        rw [run_orFault]
        cases r <;> rfl
      exact ⟨same _, (quiet_orFault _ _).logs log c⟩
  | some path =>
      refine logs_loadSheet sends path rows cols ?_
      intro s loaded
      refine countable path s rfl ?_
      show (Sheet.load c.files (.ofText path) rows cols).toOption = some s
      rw [loaded]
      rfl

/-! ## Showing an evaluation -/

/-- A configuration with which events are kept and all evaluations can be shown. -/
structure WellFormed (config : Config) : Prop where
  enabled : Journal.isEnabled config = true
  tail : ∃ tail, Journal.tailOf config = .ok tail
  size : ∃ rows cols, sizeOf config = .ok (rows, cols)
  precision : ∃ digits, ((config.setting? "display_precision").getD .null).toInt = .ok digits ∧
    0 ≤ digits ∧ digits ≤ largestPrecision

theorem sizeOf_default : sizeOf Config.default = .ok (100, 26) := by rfl

theorem wellFormed_default : WellFormed Config.default :=
  ⟨by rfl, ⟨2097152, by rfl⟩, ⟨100, 26, sizeOf_default⟩, ⟨10, by rfl, by decide, by decide⟩⟩

/-- A result that is rounded to be shown: a finite number that is not whole, or is large. -/
def Rounded : Formula.Result → Prop
  | .blank => False
  | .number x => x.isFinite = true ∧ ∀ n, Decimal.toInt? x = some n → wholeLimit ≤ n.natAbs

/-- The text of a result is made up of printable characters of ASCII. -/
theorem displayText_ok (result : Formula.Result) {digits : Int}
    (fits : Rounded result → 0 ≤ digits ∧ digits ≤ largestPrecision) :
    ∃ s : String, displayText result.toValue {} digits = .ok (Text.ofString s) ∧
      Text.Plain s.toList := by
  show ∃ s : String, valueDisplay digits result.toValue = .ok (Text.ofString s) ∧ _
  cases result with
  | blank => exact ⟨_, rfl, Decimal.plain_intText 0⟩
  | number x =>
      show ∃ s : String, (if x.isFinite then (floatDisplay digits x).map Text.ofString
        else .ok (Decimal.floatText x : String)) = .ok (Text.ofString s) ∧ _
      have rounds (rounded : Rounded (.number x)) : floatDisplay.rounded digits x =
          .ok (Decimal.roundedText digits.toNat x) := by
        have fits := fits rounded
        unfold floatDisplay.rounded
        rw [if_neg (by omega)]
      split
      · next finite =>
          unfold floatDisplay
          split
          · next n whole =>
              split
              · exact ⟨_, rfl, Decimal.plain_intText _⟩
              · next large =>
                  have rounded : Rounded (.number x) := by
                    refine ⟨finite, fun m same => ?_⟩
                    rw [whole] at same
                    cases same
                    exact Nat.le_of_not_lt large
                  rw [rounds rounded]
                  exact ⟨_, rfl, Decimal.plain_roundedText _ x⟩
          · next broken =>
              have rounded : Rounded (.number x) := by
                refine ⟨finite, fun m same => ?_⟩
                rw [broken] at same
                cases same
              rw [rounds rounded]
              exact ⟨_, rfl, Decimal.plain_roundedText _ x⟩
      · exact ⟨_, rfl, Decimal.plain_floatText x⟩

/-- Nothing is rounded to a count of digits that is out of bounds. -/
theorem displayText_error {result : Formula.Result} (rounded : Rounded result) {digits : Int}
    (beyond : digits < 0 ∨ largestPrecision < digits) :
    displayText result.toValue {} digits = .error ⟨digits⟩ := by
  cases result with
  | blank => exact rounded.elim
  | number x =>
      obtain ⟨finite, large⟩ := rounded
      have fails : floatDisplay.rounded digits x = .error ⟨digits⟩ := by
        unfold floatDisplay.rounded
        rw [if_pos beyond]
      show (if x.isFinite then (floatDisplay digits x).map Text.ofString
        else .ok (Decimal.floatText x : String)) = .error ⟨digits⟩
      rw [if_pos finite]
      unfold floatDisplay
      split
      · next n whole =>
          rw [if_neg (Nat.not_lt.mpr (large n whole)), fails]
          rfl
      · rw [fails]
        rfl

theorem run_showResult {config : Config} {result : Formula.Result} {digits : Int}
    (precision : ((config.setting? "display_precision").getD .null).toInt = .ok digits)
    (fits : Rounded result → 0 ≤ digits ∧ digits ≤ largestPrecision) (c : Console) :
    ((showResult config result).run c).1 = .ok () := by
  obtain ⟨s, shown, plain⟩ := displayText_ok result fits
  have no_escape : ∀ ch ∈ s.toList, ch.toNat ≠ 0x1b := by
    intro ch there
    have := Text.isPlain_bounds (plain ch there)
    omega
  have printed := run_print no_escape c
  unfold showResult intSetting
  rw [run_bind_ok (run_orFault_ok _ precision c), run_bind_ok (run_orFault_ok _ shown c)]
  exact congrArg Prod.fst printed

/-- All results are shown with a configuration with which this can be done. -/
theorem WellFormed.run_showResult {config : Config} (formed : WellFormed config)
    (result : Formula.Result) (c : Console) : ((showResult config result).run c).1 = .ok () := by
  obtain ⟨digits, precision, bounds⟩ := formed.precision
  exact Command.run_showResult precision (fun _ => bounds) c

/-- An evaluation is shown whatever it came to, if its result is. -/
theorem run_announce {config : Config} (tokens : List Text) {ev : Formula.Evaluator} (json : Bool)
    (shows : json = false → ev.error.isEmpty = true →
      ∀ d, ((showResult config ev.result).run d).1 = .ok ())
    (label : Option Text) (c : Console) :
    ((announce tokens ev config json label).run c).1 = .ok () := by
  cases json with
  | true => rw [run_announce_json]
  | false =>
      unfold announce
      rw [if_neg Bool.false_ne_true]
      split
      · next no_error => exact shows rfl no_error c
      · rfl

/-- An evaluation is emitted and shown, and the command fails if there is an error. -/
theorem run_showOutcome {config : Config} (tokens : List Text) {ev : Formula.Evaluator}
    (json : Bool)
    (shows : json = false → ev.error.isEmpty = true →
      ∀ d, ((showResult config ev.result).run d).1 = .ok ())
    (label : Option Text) (c : Console) :
    let emitted := ((emit fun time =>
      Journal.Event.ofOutcome time tokens ev.result ev.error label).run c).2
    (showOutcome tokens ev config json label).run c =
      (if ev.error.isEmpty then .ok () else .error .failed,
        ((announce tokens ev config json label).run emitted).2) := by
  intro emitted
  have shown := run_announce tokens json shows label emitted
  rw [showOutcome_eq, run_bind_ok (run_emit _ c)]
  show (announce tokens ev config json label >>= fun _ => verdict ev).run emitted = _
  generalize ending : (announce tokens ev config json label).run emitted = after at shown ⊢
  obtain ⟨result, after⟩ := after
  obtain rfl : result = .ok () := shown
  rw [run_bind_ok ending, run_verdict]

/-- **An evaluation that is shown counts as the name of its error**, and the command fails if there
is one. -/
theorem logs_showOutcome (sends : c.emitter.log = some log) {config : Config}
    (formed : WellFormed config) (tokens : List Text) (ev : Formula.Evaluator) (json : Bool)
    (label : Option Text) :
    let done := (showOutcome tokens ev config json label).run c
    (done.1 = if ev.error.isEmpty then .ok () else .error .failed) ∧
      Logs log [Journal.Event.outcomeName ev.error] c done.2 := by
  intro done
  have written := logs_emit
    (fun time => .ofOutcome time tokens ev.result ev.error label) sends
    (Journal.Event.storable_ofOutcome _ _ _ _ _)
  rw [Journal.Event.counted_ofOutcome] at written
  have ran : done = _ :=
    run_showOutcome tokens json (fun _ _ => formed.run_showResult ev.result) label c
  rw [ran]
  exact ⟨rfl, written.trans ((quiet_announce tokens ev config json label).logs log _)⟩

end

end SheetCalc.Command
