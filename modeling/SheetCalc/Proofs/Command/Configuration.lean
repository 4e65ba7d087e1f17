import SheetCalc.Proofs.Command.Refusal
import SheetCalc.Proofs.Journal.Failures

/-!
# Configurations over which a command breaks off

The text in the configuration of a project is read as settings (`Config.Reads`), or a command on the
project refuses it: it says what is wrong and ends. Over some texts it does neither:

* the document is malformed, collections stand inside too many others, or an escape has too large a
  number (`Config.Unread`);
* a setting is not what the command needs. The settings are not looked at when they are read, but
  one after the other where they are needed, and nothing is reported there.

Which settings these are depends on the command. To evaluate a formula it needs a log if events are
kept, a sheet, and a count of digits for a result that is shown (`EvalTrips`); to show events it
needs to know how much of the log is to be read (`EventsTrips`). Over these texts and no others the
configuration makes a command break off (`configuration_refused_or_trips`).
-/

namespace SheetCalc

open Text.Utf8 (encode)

/-! ## Settings -/

/-- A value that is no integer: neither a finite number nor a truth value nor a text that reads as
an integer. -/
def Value.IsNoInteger : Value → Prop
  | .null | .list _ | .mapping _ => True
  | .float x => x.isFinite = false
  | .text s => ∀ n, Decimal.readInt s.chars ≠ .ok n
  | .bool _ | .int _ => False

theorem Value.isNoInteger_iff {v : Value} : v.IsNoInteger ↔ ∃ e, v.toInt = .error e := by
  unfold Value.IsNoInteger Value.toInt
  cases v with
  | float x =>
      simp only [← Decimal.truncate?_eq_none_iff]
      cases Decimal.truncate? x <;> simp
  | text s =>
      simp only
      cases Decimal.readInt s.chars with
      | ok n => simp
      | error e => cases e <;> simp
  | _ => simp

namespace Config

/-- The value of a setting, null if there is none. -/
def value (config : Config) (name : String) : Value :=
  (config.setting? name).getD .null

/-- The settings that a text is read as: those of its mapping laid over the default ones, or only
these if what is read counts as false. -/
inductive Reads (text : List Char) : Config → Prop
  | mapping {settings : Entries Key Value} :
      Yaml.read (Text.unifyBreaks text) = .ok (.mapping settings) →
      Reads text (default.update settings)
  | blank {v : Value} : Yaml.read (Text.unifyBreaks text) = .ok v → v.truthy = false →
      Reads text default

/-- Texts that are not read, and nothing is said about it. -/
inductive Unread (text : List Char) : Prop
  | malformed : Yaml.read (Text.unifyBreaks text) = .error .malformed → Unread text
  | deep : Yaml.read (Text.unifyBreaks text) = .error .tooDeep → Unread text
  | escape : Yaml.read (Text.unifyBreaks text) = .error .codeTooLarge → Unread text

theorem Unread.not_read {text : List Char} (unread : Unread text) (v : Value) :
    Yaml.read (Text.unifyBreaks text) ≠ .ok v := by
  intro document
  cases unread with
  | malformed failed =>
      rw [document] at failed
      cases failed
  | deep failed =>
      rw [document] at failed
      cases failed
  | escape failed =>
      rw [document] at failed
      cases failed

/-- Texts over which a command breaks off that trips over some settings. -/
inductive Over (text : List Char) (trips : Config → Prop) : Prop
  | unread : Unread text → Over text trips
  | settings {config : Config} : Reads text config → trips config → Over text trips

end Config

/-- What is reported of a configuration that is not loaded. -/
def ConfigError.IsRefusal : ConfigError → Prop
  | .unreadable _ => False
  | .badDocument e => e ≠ .malformed ∧ e ≠ .tooDeep ∧ e ≠ .codeTooLarge
  | .notMapping _ => True

namespace Config

section

variable {fs : Files} {project : Path} {text : List Char}
  (holds : fs.Holds (path project) (encode text))

include holds

/-- What is loaded from a configuration that holds a text. -/
theorem load_eq : load fs project = match Yaml.read (Text.unifyBreaks text) with
    | .ok (.mapping settings) => .ok (default.update settings)
    | .ok v => if v.truthy then .error (.notMapping (path project)) else .ok default
    | .error e => .error (.badDocument e) := by
  unfold load
  simp only [holds.has, holds.readText, bind, Except.bind, Except.mapError]
  cases Yaml.read (Text.unifyBreaks text) with
  | ok v => cases v <;> rfl
  | error e => rfl

theorem load_ok_iff {config : Config} : load fs project = .ok config ↔ Reads text config := by
  rw [load_eq holds]
  constructor
  · intro loaded
    cases document : Yaml.read (Text.unifyBreaks text) with
    | error e =>
        rw [document] at loaded
        cases loaded
    | ok v =>
        rw [document] at loaded
        cases v with
        | mapping settings =>
            cases loaded
            exact .mapping document
        | _ =>
            simp only at loaded
            split at loaded
            · cases loaded
            · next blank =>
                cases loaded
                exact .blank document (Bool.eq_false_iff.mpr blank)
  · intro reads
    cases reads with
    | mapping document => rw [document]
    | @blank v document blank =>
        rw [document]
        cases v with
        | mapping settings =>
            cases settings with
            | nil => rfl
            | cons _ _ => cases blank
        | _ =>
            simp only
            rw [blank]
            rfl

/-- A configuration is loaded or refused, or its text is not read. -/
theorem load_unread_iff :
    (∃ e, load fs project = .error e ∧ ¬ e.IsRefusal) ↔ Unread text := by
  rw [load_eq holds]
  constructor
  · rintro ⟨e, failed, unrefused⟩
    cases document : Yaml.read (Text.unifyBreaks text) with
    | ok v =>
        rw [document] at failed
        cases v with
        | mapping settings => cases failed
        | _ =>
            simp only at failed
            split at failed
            · cases failed
              exact absurd trivial unrefused
            · cases failed
    | error y =>
        rw [document] at failed
        cases failed
        cases y with
        | malformed => exact .malformed document
        | tooDeep => exact .deep document
        | codeTooLarge => exact .escape document
        | _ => exact absurd ⟨nofun, nofun, nofun⟩ unrefused
  · intro unread
    cases unread with
    | malformed document =>
        rw [document]
        exact ⟨_, rfl, fun refusal => refusal.1 rfl⟩
    | deep document =>
        rw [document]
        exact ⟨_, rfl, fun refusal => refusal.2.1 rfl⟩
    | escape document =>
        rw [document]
        exact ⟨_, rfl, fun refusal => refusal.2.2 rfl⟩

end

end Config

namespace Command

open Procedure (run_bind run_bind_ok run_bind_error)
open Journal (Log)

variable {α β : Type}

/-! ## What is to blame -/

/-- What is wrong with the configuration. -/
def Fault.OfConfig : Fault → Prop
  | .config _ | .setting _ | .size _ | .precision _ => True
  | .log e => ¬ e.OfLog
  | _ => False

/-- A part of a command breaks off over the configuration and has printed nothing. -/
def Breaks (a : Action α) (c : Console) : Prop :=
  ∃ (f : Fault) (d : Console), f.OfConfig ∧ a.run c = (.error (.broken f), d) ∧ d.out = c.out ∧
    d.err = c.err

theorem breaks_orFault {ε : Type} (fault : ε → Fault) {r : Except ε α} {e : ε}
    (failed : r = .error e) (blame : (fault e).OfConfig) (c : Console) :
    Breaks (orFault fault r) c := by
  refine ⟨fault e, c, blame, ?_, rfl, rfl⟩
  rw [run_orFault, failed]
  rfl

theorem Breaks.bind {a : Action α} {c : Console} (breaks : Breaks a c) (f : α → Action β) :
    Breaks (a >>= f) c := by
  obtain ⟨fault, d, blame, ran, printed⟩ := breaks
  exact ⟨fault, d, blame, run_bind_error ran f, printed⟩

theorem breaks_behind {a : Action α} {c d : Console} {x : α} (ran : a.run c = (.ok x, d))
    (out : d.out = c.out) (err : d.err = c.err) {f : α → Action β} (breaks : Breaks (f x) d) :
    Breaks (a >>= f) c := by
  obtain ⟨fault, after, blame, broke, same_out, same_err⟩ := breaks
  refine ⟨fault, after, blame, ?_, same_out.trans out, same_err.trans err⟩
  rw [run_bind_ok ran, broke]

/-! ## Settings that are needed -/

/-- How much of the log is to be read is given, but not by an integer. -/
def LacksTail (config : Config) : Prop :=
  config.value "logging_tail_bytes" ≠ .null ∧ (config.value "logging_tail_bytes").IsNoInteger

/-- Events are kept, but how much of the log is to be read is not given by an integer. -/
structure Unlogged (config : Config) : Prop where
  enabled : Journal.isEnabled config = true
  lacks : LacksTail config

/-- The size of a sheet is not given by integers, or no sheet has it. -/
inductive Unsized (config : Config) : Prop
  | rows : (config.value "sheet_rows").IsNoInteger → Unsized config
  | cols : (config.value "sheet_cols").IsNoInteger → Unsized config
  | bounds {rows cols : Int} : sizeOf config = .ok (rows, cols) → rows < 1 ∨ cols < 1 →
      Unsized config

/-- The sheet without cells of the size that is given. -/
def Sized (config : Config) (s : Sheet) : Prop :=
  ∃ rows cols, sizeOf config = .ok (rows, cols) ∧ Sheet.ofSize rows cols = .ok s

/-- The count of digits is not given by an integer, or it is out of bounds and the result has to be
rounded. -/
inductive Unshown (config : Config) (result : Formula.Result) : Prop
  | precision : (config.value "display_precision").IsNoInteger → Unshown config result
  | digits {digits : Int} : (config.value "display_precision").toInt = .ok digits →
      digits < 0 ∨ largestPrecision < digits → Rounded result → Unshown config result

section

variable {config : Config}

theorem lacksTail_iff : LacksTail config ↔ ∃ e, Journal.tailOf config = .error e := by
  unfold LacksTail Config.value Journal.tailOf
  rw [Value.isNoInteger_iff]
  cases config.setting? "logging_tail_bytes" with
  | none => simp
  | some v => cases v <;> simp

theorem attach_error_iff (em : Journal.Emitter) (project : Path) :
    (∃ e, em.attach project config = .error e) ↔ Unlogged config := by
  unfold Journal.Emitter.attach
  constructor
  · rintro ⟨e, failed⟩
    split at failed
    · next enabled =>
        refine ⟨enabled, lacksTail_iff.mpr ?_⟩
        cases tail : Journal.tailOf config with
        | error e => exact ⟨e, rfl⟩
        | ok n =>
            rw [tail] at failed
            cases failed
    · cases failed
  · rintro ⟨enabled, lacks⟩
    obtain ⟨e, unread⟩ := lacksTail_iff.mp lacks
    rw [if_pos enabled, unread]
    exact ⟨e, rfl⟩

theorem ofSize_error {rows cols : Int} (bounds : rows < 1 ∨ cols < 1) :
    Sheet.ofSize rows cols = .error ⟨rows, cols⟩ := by
  unfold Sheet.ofSize
  rw [dif_neg (by omega)]

theorem sized_or_unsized (config : Config) : (∃ s, Sized config s) ∨ Unsized config := by
  cases rows : (config.value "sheet_rows").toInt with
  | error e => exact .inr (.rows (Value.isNoInteger_iff.mpr ⟨e, rows⟩))
  | ok m =>
      cases cols : (config.value "sheet_cols").toInt with
      | error e => exact .inr (.cols (Value.isNoInteger_iff.mpr ⟨e, cols⟩))
      | ok n =>
          have size : sizeOf config = .ok (m, n) := by
            unfold Config.value at rows cols
            unfold sizeOf
            rw [rows, cols]
            rfl
          by_cases bounds : m < 1 ∨ n < 1
          · exact .inr (.bounds size bounds)
          · have least : 1 ≤ m ∧ 1 ≤ n := by omega
            exact .inl ⟨_, m, n, size, dif_pos least⟩

theorem run_openSheet_sized {s : Sheet} (sized : Sized config s) (c : Console) :
    (openSheet none config).run c = (.ok s, c) := by
  obtain ⟨rows, cols, size, made⟩ := sized
  rw [run_openSheet size none c]
  exact run_orFault_ok _ made c

theorem run_intSetting {name : String} {n : Int} (read : (config.value name).toInt = .ok n)
    (c : Console) : (intSetting config name).run c = (.ok n, c) :=
  run_orFault_ok _ read c

theorem breaks_intSetting {name : String} (broken : (config.value name).IsNoInteger) (c : Console) :
    Breaks (intSetting config name) c := by
  obtain ⟨e, failed⟩ := Value.isNoInteger_iff.mp broken
  exact breaks_orFault .setting failed trivial c

theorem breaks_openSheet (unsized : Unsized config) (c : Console) :
    Breaks (openSheet none config) c := by
  cases unsized with
  | rows broken => exact (breaks_intSetting broken c).bind _
  | cols broken =>
      -- The rows may be no integer either.
      by_cases rows : (config.value "sheet_rows").IsNoInteger
      · exact (breaks_intSetting rows c).bind _
      · have read : ∃ m, (config.value "sheet_rows").toInt = .ok m := by
          cases read : (config.value "sheet_rows").toInt with
          | error e => exact absurd (Value.isNoInteger_iff.mpr ⟨e, read⟩) rows
          | ok m => exact ⟨m, rfl⟩
        obtain ⟨m, read⟩ := read
        exact breaks_behind (run_intSetting read c) rfl rfl ((breaks_intSetting broken c).bind _)
  | bounds size bounds =>
      obtain ⟨f, d, blame, broke, printed⟩ :=
        breaks_orFault .size (ofSize_error bounds) trivial c
      exact ⟨f, d, blame, (run_openSheet size none c).trans broke, printed⟩

theorem breaks_showResult {result : Formula.Result} (unshown : Unshown config result)
    (c : Console) : Breaks (showResult config result) c := by
  cases unshown with
  | precision broken => exact (breaks_intSetting broken c).bind _
  | digits read beyond rounded =>
      have failed := breaks_orFault .precision (displayText_error rounded beyond) trivial c
      exact breaks_behind (run_intSetting read c) rfl rfl (failed.bind _)

/-- A result is shown if the digits are all right. -/
theorem run_showResult_of_not_unshown {result : Formula.Result} (shown : ¬ Unshown config result)
    (c : Console) : ((showResult config result).run c).1 = .ok () := by
  cases read : (config.value "display_precision").toInt with
  | error e => exact absurd (.precision (Value.isNoInteger_iff.mpr ⟨e, read⟩)) shown
  | ok digits =>
      refine run_showResult read (fun rounded => ?_) c
      have bounds : ¬ (digits < 0 ∨ largestPrecision < digits) := fun beyond =>
        shown (.digits read beyond rounded)
      omega

end

/-! ## Projects -/

section

variable {c : Console} {directory : Text}

theorem run_openProject_refused {e : ConfigError}
    (loaded : Config.load c.files (.ofText directory) = .error e) (refusal : e.IsRefusal) :
    (openProject directory).run c = (.error (.reported e.message), c.told e.message) := by
  have got : (get : Action Console).run c = (.ok c, c) := rfl
  unfold openProject
  rw [run_bind_ok got]
  simp only [loaded]
  split
  · exact refusal.elim
  · exact absurd rfl refusal.1
  · exact absurd rfl refusal.2.1
  · exact absurd rfl refusal.2.2
  · rfl

theorem run_openProject_tripped {e : ConfigError}
    (loaded : Config.load c.files (.ofText directory) = .error e) (unrefused : ¬ e.IsRefusal) :
    (openProject directory).run c = (.error (.broken (.config e)), c) := by
  have got : (get : Action Console).run c = (.ok c, c) := rfl
  unfold openProject
  rw [run_bind_ok got]
  simp only [loaded]
  split
  · rfl
  · rfl
  · rfl
  · rfl
  · next readable formed flat small =>
      refine absurd ?_ unrefused
      cases e with
      | unreadable e => exact absurd rfl (readable e)
      | badDocument e =>
          exact ⟨fun same => formed (congrArg _ same), fun same => flat (congrArg _ same),
            fun same => small (congrArg _ same)⟩
      | notMapping path => trivial

variable {config : Config} (loaded : Config.load c.files (.ofText directory) = .ok config)

include loaded

theorem opens_or_unlogged :
    (∃ emitter, (openProject directory).run c = (.ok config, { c with emitter })) ∨
      Unlogged config := by
  cases attached : c.emitter.attach (.ofText directory) config with
  | ok emitter => exact .inl ⟨emitter, run_openProject_attached loaded attached⟩
  | error e => exact .inr ((attach_error_iff _ _).mp ⟨e, attached⟩)

theorem breaks_openProject (unlogged : Unlogged config) : Breaks (openProject directory) c := by
  obtain ⟨e, unattached⟩ := (attach_error_iff c.emitter (.ofText directory)).mpr unlogged
  exact ⟨.setting e, c, trivial, run_openProject_unattached loaded unattached, rfl, rfl⟩

end

/-! ## Evaluations -/

/-- Settings over which it breaks off to evaluate a formula without the sheet of a file. -/
inductive EvalTrips (tokens : List Text) (json : Bool) (config : Config) : Prop
  | log : Unlogged config → EvalTrips tokens json config
  | sheet : Unsized config → EvalTrips tokens json config
  | result {s : Sheet} {ev : Formula.Evaluator} : json = false → Sized config s →
      (Formula.evaluate Sheet.resolver tokens s).evaluator = ev → ev.error.isEmpty = true →
      Unshown config ev.result → EvalTrips tokens json config

theorem breaks_showOutcome {config : Config} {ev : Formula.Evaluator}
    (no_error : ev.error.isEmpty = true) (unshown : Unshown config ev.result)
    (tokens : List Text) (label : Option Text) (c : Console) :
    Breaks (showOutcome tokens ev config false label) c := by
  obtain ⟨d, emitted, out, err⟩ := emit_ok
    (fun time => Journal.Event.ofOutcome time tokens ev.result ev.error label) c
  have announces : announce tokens ev config false label = showResult config ev.result := by
    unfold announce
    rw [if_neg Bool.false_ne_true, if_pos no_error]
  rw [showOutcome_eq, announces]
  exact breaks_behind emitted out err ((breaks_showResult unshown d).bind _)

section

variable {c : Console} {directory : Text} {config : Config}
  (loaded : Config.load c.files (.ofText directory) = .ok config) {tokens : List Text} {json : Bool}

include loaded

theorem breaks_runEval (trips : EvalTrips tokens json config) :
    Breaks (runEval tokens none directory json) c := by
  unfold runEval
  -- The project is opened first, whatever else is wrong.
  rcases opens_or_unlogged loaded with ⟨emitter, opened⟩ | unlogged
  · cases trips with
    | log unlogged => exact (breaks_openProject loaded unlogged).bind _
    | sheet unsized => exact breaks_behind opened rfl rfl ((breaks_openSheet unsized _).bind _)
    | result plain sized evaluated no_error unshown =>
        cases plain
        cases evaluated
        exact breaks_behind opened rfl rfl (breaks_behind (run_openSheet_sized sized _) rfl rfl
          (breaks_showOutcome no_error unshown tokens none _))
  · exact (breaks_openProject loaded unlogged).bind _

/-- A formula is evaluated, if no setting is tripped over. -/
theorem run_runEval (whole : ¬ EvalTrips tokens json config) :
    FailsBy (· = .failed) ((runEval tokens none directory json).run c).1 := by
  rcases opens_or_unlogged loaded with ⟨emitter, opened⟩ | unlogged
  · rcases sized_or_unsized config with ⟨s, sized⟩ | unsized
    · have shows (plain : json = false)
          (no_error : (Formula.evaluate Sheet.resolver tokens s).evaluator.error.isEmpty = true) :=
        run_showResult_of_not_unshown fun unshown =>
          whole (.result plain sized rfl no_error unshown)
      unfold runEval
      rw [run_bind_ok opened, run_bind_ok (run_openSheet_sized sized _)]
      rw [run_showOutcome tokens json shows none]
      cases (Formula.evaluate Sheet.resolver tokens s).evaluator.error.isEmpty with
      | true => exact failsBy_ok ()
      | false => exact failsBy_error rfl
    · exact absurd (.sheet unsized) whole
  · exact absurd (.log unlogged) whole

end

/-! ## Events -/

/-- If a part of a command ends early, a property holds of why. -/
def StopsBy (P : Stop → Prop) (a : Action α) : Prop :=
  ∀ c, FailsBy P (a.run c).1

/-- A command breaks off over the log. -/
def Stop.OfLog (s : Stop) : Prop :=
  ∃ f : Fault, f.OfLog ∧ s = .broken f

section

variable {P : Stop → Prop}

theorem stopsBy_pure (a : α) : StopsBy P (pure a) := fun _ => failsBy_ok a

theorem StopsBy.bind {a : Action α} {f : α → Action β} (first : StopsBy P a)
    (rest : ∀ x, StopsBy P (f x)) : StopsBy P (a >>= f) := by
  intro c
  have fails := first c
  rw [run_bind]
  generalize a.run c = done at fails ⊢
  obtain ⟨_ | x, after⟩ := done
  · exact failsBy_error (fails _ rfl)
  · exact rest x after

end

theorem stopsBy_print (t : Text) : StopsBy Stop.OfLog (print t) := by
  intro c
  unfold print
  split
  · exact failsBy_ok ()
  · exact failsBy_error ⟨.unprintable, trivial, rfl⟩

/-- Where events are shown, it is the log that makes a command break off. -/
theorem stopsBy_ofShowing : OfShowing fun _ a => StopsBy Stop.OfLog a :=
  ⟨stopsBy_pure, StopsBy.bind, stopsBy_print, fun f blame _ => failsBy_error ⟨f, blame, rfl⟩⟩

/-- The log of a project of which a number of bytes is to be read. -/
def logOf (directory : Text) (tail : Int) : Log :=
  { project := .ofText directory, tail }

/-- Settings over which it breaks off to show the events of a project. -/
inductive EventsTrips (fs : Files) (directory : Text) (config : Config) : Prop
  | tail : LacksTail config → EventsTrips fs directory config
  | negative {tail : Int} : Journal.tailOf config = .ok tail → (logOf directory tail).BeyondEnd fs →
      EventsTrips fs directory config

/-- What is shown of the events in a log. -/
def showLog (log : Log) (fs : Files) (filter : Journal.Filter) (limit : Int) (summary json : Bool) :
    Action Unit := do
  if summary then showTally (← orFault .log (Journal.tally log fs)) json
  else showEvents (← orFault .log (Journal.select log fs filter limit)) json

section

variable {log : Log} {fs : Files} (filter : Journal.Filter) (limit : Int) (summary json : Bool)

theorem breaks_showLog (beyond : log.BeyondEnd fs) (c : Console) :
    Breaks (showLog log fs filter limit summary json) c := by
  unfold showLog
  cases summary with
  | true =>
      obtain ⟨e, failed, blame⟩ := Journal.bind_values_of_beyondEnd beyond fun vs =>
        vs.foldlM Journal.count []
      exact (breaks_orFault .log failed blame c).bind _
  | false =>
      obtain ⟨e, failed, blame⟩ := Journal.bind_values_of_beyondEnd beyond fun vs =>
        Journal.selectFrom filter (min limit Journal.selectionLimit) [] vs.reverse
      exact (breaks_orFault .log failed blame c).bind _

theorem stopsBy_showLog (within : ¬ log.BeyondEnd fs) :
    StopsBy Stop.OfLog (showLog log fs filter limit summary json) := by
  have parts := stopsBy_ofShowing
  unfold showLog
  split
  · exact (parts.orFault (Journal.tally_failsBy within)).bind fun counts =>
      parts.showTally counts json
  · exact (parts.orFault (Journal.select_failsBy within filter limit)).bind fun events =>
      parts.showEvents events json

end

theorem run_showLog_absent {log : Log} {fs : Files} (absent : fs.has log.path = .ok false)
    (filter : Journal.Filter) (limit : Int) (summary json : Bool) (c : Console) :
    ((showLog log fs filter limit summary json).run c).1 = .ok () := by
  have none_there := Journal.values_of_absent absent
  unfold showLog
  cases summary with
  | true =>
      have counted : Journal.tally log fs = .ok [] := by
        unfold Journal.tally
        rw [none_there]
        rfl
      rw [if_pos rfl, run_bind_ok (run_orFault_ok _ counted c)]
      cases json with
      | true => exact congrArg Prod.fst (run_print_value (.mapping []) c)
      | false => rfl
  | false =>
      have selected : Journal.select log fs filter limit = .ok [] := by
        unfold Journal.select
        rw [none_there]
        rfl
      rw [if_neg Bool.false_ne_true, run_bind_ok (run_orFault_ok _ selected c)]
      cases json with
      | true => exact congrArg Prod.fst (run_print_value (.list []) c)
      | false => rfl

section

variable {c : Console} {directory : Text} {config : Config}
  (loaded : Config.load c.files (.ofText directory) = .ok config)
  (filter : Journal.Filter) (limit : Int) (summary json : Bool)

theorem run_runEvents_opened {emitter : Journal.Emitter} {tail : Int}
    (opened : (openProject directory).run c = (.ok config, { c with emitter }))
    (read : Journal.tailOf config = .ok tail) :
    (runEvents directory filter limit summary json).run c =
      (showLog (logOf directory tail) c.files filter limit summary json).run
        { c with emitter } := by
  have got (d : Console) : (get : Action Console).run d = (.ok d, d) := rfl
  unfold runEvents showLog
  rw [run_bind_ok opened, run_bind_ok (run_orFault_ok _ read _), run_bind_ok (got _)]
  rfl

include loaded

theorem breaks_runEvents (trips : EventsTrips c.files directory config) :
    Breaks (runEvents directory filter limit summary json) c := by
  rcases opens_or_unlogged loaded with ⟨emitter, opened⟩ | unlogged
  · cases trips with
    | tail lacks =>
        obtain ⟨e, unread⟩ := lacksTail_iff.mp lacks
        have broke := breaks_orFault .setting unread trivial { c with emitter }
        exact breaks_behind opened rfl rfl (broke.bind _)
    | negative read beyond =>
        obtain ⟨f, d, blame, broke, printed⟩ :=
          breaks_showLog filter limit summary json beyond { c with emitter }
        refine ⟨f, d, blame, ?_, printed⟩
        rw [run_runEvents_opened filter limit summary json opened read, broke]
  · exact (breaks_openProject loaded unlogged).bind _

/-- Events are shown or the log is to blame, if no setting is tripped over. -/
theorem run_runEvents (whole : ¬ EventsTrips c.files directory config) :
    FailsBy (fun s => s.OfLog ∧ c.files.has (Log.path { project := .ofText directory }) ≠ .ok false)
      ((runEvents directory filter limit summary json).run c).1 := by
  rcases opens_or_unlogged loaded with ⟨emitter, opened⟩ | unlogged
  · cases read : Journal.tailOf config with
    | error e => exact absurd (.tail (lacksTail_iff.mpr ⟨e, read⟩)) whole
    | ok tail =>
        have within : ¬ (logOf directory tail).BeyondEnd c.files := fun beyond =>
          whole (.negative read beyond)
        rw [run_runEvents_opened filter limit summary json opened read]
        intro s stopped
        refine ⟨stopsBy_showLog filter limit summary json within _ s stopped, fun absent => ?_⟩
        have none_there : c.files.has (logOf directory tail).path = .ok false := absent
        rw [run_showLog_absent none_there] at stopped
        cases stopped
  · exact absurd (.tail unlogged.lacks) whole

end

/-! ## Command lines -/

/-- A command line asks for a command. -/
def Asks (args : List Text) (fs : Files) (command : Command) : Prop :=
  ∃ line, Line.read? args = some line ∧ Line.command fs line = .ok command

/-- A command breaks off over its configuration and has printed nothing. -/
structure BreaksOver (c : Console) (o : Outcome) : Prop where
  stop : ∃ f : Fault, f.OfConfig ∧ o.stop = some (.broken f)
  exit : o.exitCode = 1
  out : o.console.out = c.out
  err : o.console.err = c.err

/-- A command refuses its configuration: it says what is wrong and ends, and has done nothing
else. -/
structure RefusesConfig (c : Console) (e : ConfigError) (o : Outcome) : Prop where
  stop : o.stop = some (.reported e.message)
  exit : o.exitCode = 1
  out : o.console.out = c.out
  tells : o.stderr =
    c.err ++ c.held ++ ("Error: " ++ e.message : Text).withoutControls.escapingHalves ++ "\n"
  files : o.console.files = c.files

/-- How a command ends over the text of its configuration. It breaks off over what is not read, and
over the settings that it trips over. With other settings it ends early for certain reasons only,
and without settings it refuses the text. -/
structure EndsOver (c : Console) (directory : Text) (text : List Char) (trips : Config → Prop)
    (early : Stop → Prop) (o : Outcome) : Prop where
  breaks : Config.Over text trips → BreaksOver c o
  goes_on : ¬ Config.Over text trips → ∀ config, Config.Reads text config →
    ∀ s, o.stop = some s → early s
  refuses : ¬ Config.Over text trips → (∀ config, ¬ Config.Reads text config) →
    ∃ e, Config.load c.files (.ofText directory) = .error e ∧ RefusesConfig c e o

theorem Outcome.stop_ofRun {done : Except Stop Unit × Console} {s : Stop} :
    (Outcome.ofRun done).stop = some s ↔ done.1 = .error s := by
  unfold Outcome.ofRun
  rcases done with ⟨_ | _, _⟩ <;> simp

theorem Breaks.breaksOver {a : Action Unit} {c : Console} (breaks : Breaks a c) :
    BreaksOver c (.ofRun (a.run c)) := by
  obtain ⟨f, d, blame, ran, out, err⟩ := breaks
  rw [ran]
  exact ⟨⟨f, blame, rfl⟩, rfl, out, err⟩

/-- A command that opens a project first ends over its configuration as it does with the
settings. -/
theorem endsOver_of_opens {c : Console} {directory : Text} {text : List Char}
    (holds : c.files.Holds (Config.path (.ofText directory)) (encode text))
    {args : List Text} {command : Command} {rest : Config → Action Unit}
    (asks : Asks args c.files command) (opens : run command = openProject directory >>= rest)
    {trips : Config → Prop} {early : Stop → Prop}
    (breaks : ∀ config, Config.load c.files (.ofText directory) = .ok config → trips config →
      Breaks (run command) c)
    (goes_on : ∀ config, Config.load c.files (.ofText directory) = .ok config → ¬ trips config →
      FailsBy early ((run command).run c).1) :
    EndsOver c directory text trips early (runLine args c) := by
  obtain ⟨line, read, asked⟩ := asks
  rw [runLine_eq read asked]
  constructor
  case breaks =>
    intro tripped
    cases tripped with
    | unread unread =>
        obtain ⟨e, failed, unrefused⟩ := (Config.load_unread_iff holds).mpr unread
        have broke : Breaks (openProject directory) c :=
          ⟨.config e, c, trivial, run_openProject_tripped failed unrefused, rfl, rfl⟩
        rw [opens]
        exact (broke.bind rest).breaksOver
    | settings reads trips =>
        exact (breaks _ ((Config.load_ok_iff holds).mpr reads) trips).breaksOver
  case goes_on =>
    intro whole config reads s stopped
    have unharmed : ¬ trips config := fun trips => whole (.settings reads trips)
    exact goes_on config ((Config.load_ok_iff holds).mpr reads) unharmed s
      (Outcome.stop_ofRun.mp stopped)
  case refuses =>
    intro whole without
    cases loaded : Config.load c.files (.ofText directory) with
    | ok config => exact absurd ((Config.load_ok_iff holds).mp loaded) (without config)
    | error e =>
        have refusal : e.IsRefusal := by
          by_contra unrefused
          exact whole (.unread ((Config.load_unread_iff holds).mp ⟨e, loaded, unrefused⟩))
        refine ⟨e, rfl, ?_⟩
        rw [opens, run_bind_error (run_openProject_refused loaded refusal)]
        refine ⟨rfl, rfl, rfl, ?_, rfl⟩
        simp only [Outcome.stderr, Outcome.ofRun, Console.told, Option.map_some, Option.getD_some,
          Program.remark, String.append_empty]

/-- **Configurations over which a command breaks off.** On a project with whatever text in its
configuration, a command that evaluates a formula without the sheet of a file, or shows the events,
breaks off over the configuration if the text is not read or has settings over which it trips; it
has printed nothing then. Over every other text an evaluation comes to its end, which is early only
if the evaluation has an error, and so does showing the events, unless there is a log and something
is wrong with it; or there are no settings, and the command says what is wrong with the text and
ends with the exit code one. -/
theorem configuration_refused_or_trips {c : Console} {directory : Text} {text : List Char}
    (holds : c.files.Holds (Config.path (.ofText directory)) (encode text)) :
    (∀ (args tokens : List Text) (json : Bool),
      Asks args c.files (.eval tokens none directory json) →
      EndsOver c directory text (EvalTrips tokens json) (· = .failed) (runLine args c)) ∧
    ∀ (args : List Text) (filter : Journal.Filter) (limit : Int) (summary json : Bool),
      Asks args c.files (.events directory filter limit summary json) →
      EndsOver c directory text (EventsTrips c.files directory)
        (fun s => s.OfLog ∧ c.files.has (Log.path { project := .ofText directory }) ≠ .ok false)
        (runLine args c) := by
  constructor
  · intro args tokens json asks
    exact endsOver_of_opens holds asks rfl (fun _ loaded => breaks_runEval loaded)
      fun _ loaded => run_runEval loaded
  · intro args filter limit summary json asks
    exact endsOver_of_opens holds asks rfl
      (fun _ loaded => breaks_runEvents loaded filter limit summary json)
      fun _ loaded => run_runEvents loaded filter limit summary json

/-! ## Two projects -/

/-- Files with a project in the present directory that has a text in its configuration. -/
def projectWith (text : List Char) : Files :=
  { nodes := [(["calc123.yaml"], .file (encode text))] }

theorem holds_projectWith (text : List Char) :
    (projectWith text).Holds (Config.path (.ofText defaultProject)) (encode text) :=
  ⟨["calc123.yaml"], by rfl, by rfl⟩

theorem asks_eval (tokens : List Text) (fs : Files) :
    Asks ("eval" :: endOfOptions :: tokens) fs (.eval tokens none defaultProject false) := by
  have verb : Verb.ofName? "eval" = some .eval := by decide
  have named : Line.read? ("eval" :: endOfOptions :: tokens) =
      Line.readVerb? ("eval" :: endOfOptions :: tokens) := rfl
  refine ⟨.verb .eval ⟨[], tokens⟩, ?_, rfl⟩
  rw [named]
  simp [Line.readVerb?, verb, Arguments.read?, Arguments.readFrom_end]

theorem asks_events (fs : Files) :
    Asks ["events"] fs (.events defaultProject {} defaultLimit false false) := by
  have verb : Verb.ofName? "events" = some .events := by decide
  have named : Line.read? ["events"] = Line.readVerb? ["events"] := rfl
  refine ⟨.verb .events ⟨[], []⟩, ?_, rfl⟩
  rw [named]
  simp [Line.readVerb?, verb, Arguments.read?, Arguments.readFrom]

/-- A sheet without rows. -/
def noRows : List Char := "sheet_rows: 0\n".toList

theorem read_noRows :
    Yaml.read (Text.unifyBreaks noRows) = .ok (.mapping [(.text "sheet_rows", .int 0)]) := by
  have parsed : Yaml.Node.ofText? (Text.unifyBreaks (Text.unifyBreaks noRows)) =
      .ok (some (.mapping [(.plain "sheet_rows".toList, .plain "0".toList)])) := by
    decide +kernel
  exact Yaml.read_of_node parsed (by decide +kernel) rfl

/-- The settings that this is read as. -/
def rowless : Config :=
  Config.default.update [(.text "sheet_rows", .int 0)]

theorem tailOf_rowless : Journal.tailOf rowless = .ok 2097152 := by rfl

theorem sizeOf_rowless : sizeOf rowless = .ok (0, 26) := by rfl

theorem reads_noRows {config : Config} (reads : Config.Reads noRows config) : config = rowless := by
  cases reads with
  | mapping document =>
      rw [read_noRows] at document
      cases document
      rfl
  | blank document blank =>
      rw [read_noRows] at document
      cases document
      cases blank

/-- The size of sheets does not matter where events are shown. -/
theorem not_over_noRows (fs : Files) :
    ¬ Config.Over noRows (EventsTrips fs defaultProject) := by
  intro tripped
  cases tripped with
  | unread unread => exact unread.not_read _ read_noRows
  | settings reads trips =>
      cases reads_noRows reads
      cases trips with
      | tail lacks =>
          obtain ⟨e, unread⟩ := lacksTail_iff.mp lacks
          rw [tailOf_rowless] at unread
          cases unread
      | negative read beyond =>
          rw [tailOf_rowless] at read
          cases read
          exact absurd beyond.1 (by decide)

theorem not_reads_bareNumber (config : Config) : ¬ Config.Reads bareNumber config := by
  intro reads
  cases reads with
  | mapping document =>
      rw [read_bareNumber] at document
      cases document
  | blank document blank =>
      rw [read_bareNumber] at document
      cases document
      cases blank

theorem not_over_bareNumber (trips : Config → Prop) : ¬ Config.Over bareNumber trips := by
  intro tripped
  cases tripped with
  | unread unread => exact unread.not_read _ read_bareNumber
  | settings reads _ => exact not_reads_bareNumber _ reads

/-- Over a sheet without rows the evaluation of a formula breaks off, but events are shown. A number
is refused as a configuration. -/
theorem configuration_refused_or_trips_noRows :
    let time : Text := "2024-01-02T03:04:05.000006Z"
    let c : Console := { files := projectWith noRows, time }
    let d : Console := { files := projectWith bareNumber, time }
    let eval : List Text := ["eval", "--", "1"]
    BreaksOver c (runLine eval c) ∧ (runLine ["events"] c).stop = none ∧
      RefusesConfig d (.notMapping (Config.path (.ofText defaultProject))) (runLine eval d) := by
  intro time c d eval
  obtain ⟨over_rows, over_rows_events⟩ :=
    configuration_refused_or_trips (c := c) (holds_projectWith noRows)
  obtain ⟨over_number, _⟩ := configuration_refused_or_trips (c := d) (holds_projectWith bareNumber)
  have unsized : Unsized rowless := .bounds sizeOf_rowless (.inl (by decide))
  have breaks := (over_rows eval ["1"] false (asks_eval ["1"] _)).breaks
    (.settings (.mapping read_noRows) (.sheet unsized))
  have shows := (over_rows_events ["events"] {} defaultLimit false false (asks_events _)).goes_on
    (not_over_noRows _) rowless (.mapping read_noRows)
  refine ⟨breaks, ?_, ?_⟩
  · have no_log : c.files.has (Log.path { project := .ofText defaultProject }) = .ok false := by rfl
    cases stopped : (runLine ["events"] c).stop with
    | none => rfl
    | some s => exact absurd no_log (shows s stopped).2
  · obtain ⟨e, failed, refuses⟩ := (over_number eval ["1"] false (asks_eval ["1"] _)).refuses
      (not_over_bareNumber _) not_reads_bareNumber
    rw [Config.load_eq (holds_projectWith bareNumber), read_bareNumber] at failed
    cases failed
    exact refuses

/-- A configuration for sheets without rows is read, but the evaluation of a formula breaks off over
it without a report. -/
theorem rowless_configuration_breaks_off :
    let c : Console := { files := projectWith noRows, time := "2024-01-02T03:04:05.000006Z" }
    let done := runLine ["eval", "--", "1"] c
    (∃ config, Config.load c.files (.ofText defaultProject) = .ok config) ∧
      done.stop = some (.broken (.size ⟨0, 26⟩)) ∧ done.console.out = "" ∧
      done.console.err = "" := by
  intro c done
  have loaded : Config.load c.files (.ofText defaultProject) = .ok rowless :=
    (Config.load_ok_iff (holds_projectWith noRows)).mpr (.mapping read_noRows)
  have unsized (d : Console) :
      (openSheet none rowless).run d = (.error (.broken (.size ⟨0, 26⟩)), d) := by
    rw [run_openSheet sizeOf_rowless, run_orFault]
    rfl
  obtain ⟨line, read, asked⟩ := asks_eval ["1"] c.files
  have ran : done = _ := runLine_eq read asked
  unfold run runEval at ran
  rw [run_bind_ok (run_openProject loaded tailOf_rowless), run_bind_error (unsized _)] at ran
  rw [ran]
  exact ⟨⟨_, loaded⟩, rfl, rfl, rfl⟩

end Command

end SheetCalc
