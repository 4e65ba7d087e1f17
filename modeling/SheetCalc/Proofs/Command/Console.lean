import SheetCalc.Command.Run
import SheetCalc.Proofs.Journal.Written
import SheetCalc.Proofs.Messages
import SheetCalc.Proofs.Procedure

/-!
# What the parts of a command do

Each part of a command is given by what it leaves on the console. Whether the line of an event can
be added to the log does not depend on the event (`append_alike`), so an event that has a line never
shows in what a command prints (`emit_alike`). Parts of commands are alike if they end and print
alike on consoles on which the same has been printed, whatever the files are; what is put together
from such parts is alike (`Alike.bind`).
-/

namespace SheetCalc

/-! ## Writing an event -/

namespace Journal

/-- Bytes can be added to a file or not, whichever they are. -/
theorem append_bytes_alike (fs : Files) (p : Path) (bytes more : List UInt8) :
    (∃ after, fs.append p bytes = .ok after) ↔ ∃ after, fs.append p more = .ok after := by
  unfold Files.append Files.change
  cases fs.resolve p.text with
  | error e => simp [bind, Except.bind]
  | ok place =>
      simp only [bind, Except.bind]
      split <;> simp [throw, throwThe, MonadExceptOf.throw, pure, Except.pure]

/-- Events are written to a log or not, whichever they are. -/
theorem append_alike (log : Log) (e f : Event) (fs : Files) :
    ((log.append e).run fs).1 = .ok () ↔ ((log.append f).run fs).1 = .ok () := by
  rw [Log.run_append, Log.run_append]
  rcases (FileChange.makeDirs log.dir).run fs with ⟨_ | _, ready⟩
  · simp
  · have same := append_bytes_alike ready log.path (Text.Utf8.encode (Log.line e))
      (Text.Utf8.encode (Log.line f))
    cases first : ready.append log.path (Text.Utf8.encode (Log.line e)) <;>
      cases second : ready.append log.path (Text.Utf8.encode (Log.line f)) <;> simp_all

/-- What becomes of the emitter, and whether a warning is due, does not depend on the event if it
can be written. -/
theorem emit_alike (em : Emitter) (fs : Files) {e f : Event}
    (e_fits : Json.Fits Json.depthLimit e.toValue) (f_fits : Json.Fits Json.depthLimit f.toValue) :
    (em.emit fs e).emitter = (em.emit fs f).emitter ∧
      (em.emit fs e).warns = (em.emit fs f).warns := by
  unfold Emitter.emit
  cases em.log with
  | none => exact ⟨rfl, rfl⟩
  | some log =>
      have same := append_alike log e f fs
      simp only [Log.run_write, Json.isWritable_iff.mpr e_fits, Json.isWritable_iff.mpr f_fits]
      generalize (log.append e).run fs = first at same ⊢
      generalize (log.append f).run fs = second at same ⊢
      rcases first with ⟨_ | _, _⟩ <;> rcases second with ⟨_ | _, _⟩
      · exact ⟨rfl, rfl⟩
      · cases same.mpr rfl
      · cases same.mp rfl
      · exact ⟨rfl, rfl⟩

end Journal

namespace Command

open Procedure (run_bind run_bind_ok)

variable {α β : Type}

/-! ## Parts of a command -/

theorem run_orFault {ε : Type} (fault : ε → Fault) (r : Except ε α) (c : Console) :
    (orFault fault r).run c = (r.mapError fun e => .broken (fault e), c) := by
  cases r <;> rfl

theorem run_orFault_ok {ε : Type} (fault : ε → Fault) {r : Except ε α} {a : α}
    (goes_well : r = .ok a) (c : Console) : (orFault fault r).run c = (.ok a, c) := by
  rw [run_orFault, goes_well]
  rfl

theorem run_emit (e : Text → Journal.Event) (c : Console) :
    (emit e).run c =
      let done := c.emitter.emit c.files (e c.time)
      (.ok (), { c with
        files := done.files
        emitter := done.emitter
        held := if done.warns then c.held ++ lostEvents ++ "\n" else c.held }) := rfl

/-- Emitting an event prints nothing. -/
theorem emit_ok (e : Text → Journal.Event) (c : Console) :
    ∃ after, (emit e).run c = (.ok (), after) ∧ after.out = c.out ∧ after.err = c.err :=
  ⟨_, run_emit e c, rfl, rfl⟩

/-- Text without an escape is printed as it is. -/
theorem run_print {cs : List Char} (shows : ∀ c ∈ cs, c.toNat ≠ 0x1b) (c : Console) :
    (print (.ofChars cs)).run c =
      (.ok (), { c with out := c.out ++ String.ofList cs ++ "\n" }) := by
  have whole : (Text.ofChars cs).withoutControls = Text.ofChars cs := by
    refine Text.withoutControls_eq_self ?_
    intro p there
    obtain ⟨c, inside, rfl⟩ := List.mem_map.mp there
    simpa [Text.isEscape, CodePoint.ofChar] using shows c inside
  unfold print
  simp only [whole, Text.toString?, Text.chars?_ofChars, Option.map_some]
  rfl

/-- A value with an item on each line is printed as it is. -/
theorem run_print_value (v : Value) (c : Console) :
    (print (.ofChars (Json.indentedText v))).run c =
      (.ok (), { c with out := c.out ++ String.ofList (Json.indentedText v) ++ "\n" }) := by
  refine run_print ?_ c
  intro ch there
  rcases Json.mem_indentedText there with plain | rfl
  · have := Text.isPlain_bounds plain
    omega
  · decide

/-! ## Projects and sheets -/

theorem run_openProject_attached {c : Console} {directory : Text} {config : Config}
    {emitter : Journal.Emitter} (loaded : Config.load c.files (.ofText directory) = .ok config)
    (attached : c.emitter.attach (.ofText directory) config = .ok emitter) :
    (openProject directory).run c = (.ok config, { c with emitter }) := by
  have got : (get : Action Console).run c = (.ok c, c) := rfl
  unfold openProject
  rw [run_bind_ok got]
  simp only [loaded, attached]
  rfl

theorem run_openProject_unattached {c : Console} {directory : Text} {config : Config}
    {e : ConversionError} (loaded : Config.load c.files (.ofText directory) = .ok config)
    (failed : c.emitter.attach (.ofText directory) config = .error e) :
    (openProject directory).run c = (.error (.broken (.setting e)), c) := by
  have got : (get : Action Console).run c = (.ok c, c) := rfl
  unfold openProject
  rw [run_bind_ok got]
  simp only [loaded, failed]
  rfl

/-- Opening a project with a sound configuration sends events to its log, if it says so. -/
theorem run_openProject {c : Console} {directory : Text} {config : Config} {tail : Int}
    (loaded : Config.load c.files (.ofText directory) = .ok config)
    (sound : Journal.tailOf config = .ok tail) :
    (openProject directory).run c =
      (.ok config, { c with emitter := { c.emitter with
        log := if Journal.isEnabled config then some { project := .ofText directory, tail }
          else none } }) := by
  refine run_openProject_attached loaded ?_
  unfold Journal.Emitter.attach
  split
  · rw [sound]
    rfl
  · rfl

/-- The size of a sheet that a configuration gives. -/
def sizeOf (config : Config) : Except ConversionError (Int × Int) := do
  let rows ← ((config.setting? "sheet_rows").getD .null).toInt
  let cols ← ((config.setting? "sheet_cols").getD .null).toInt
  return (rows, cols)

/-- Opening a sheet asks for its size first. -/
theorem run_openSheet_eq (path : Option Text) (config : Config) (c : Console) :
    (openSheet path config).run c =
      match sizeOf config with
      | .error e => (.error (.broken (.setting e)), c)
      | .ok (rows, cols) =>
        match path with
        | some path => (loadSheet path rows cols).run c
        | none => (orFault .size (Sheet.ofSize rows cols)).run c := by
  unfold openSheet intSetting sizeOf
  cases ((config.setting? "sheet_rows").getD .null).toInt with
  | error e => rfl
  | ok rows =>
      rw [run_bind_ok (run_orFault_ok _ rfl c)]
      cases ((config.setting? "sheet_cols").getD .null).toInt with
      | error e => rfl
      | ok cols =>
          rw [run_bind_ok (run_orFault_ok _ rfl c)]
          cases path <;> rfl

theorem run_openSheet {config : Config} {rows cols : Int} (size : sizeOf config = .ok (rows, cols))
    (path : Option Text) (c : Console) :
    (openSheet path config).run c =
      match path with
      | some path => (loadSheet path rows cols).run c
      | none => (orFault .size (Sheet.ofSize rows cols)).run c := by
  rw [run_openSheet_eq, size]

theorem sheetFailure_eq {message : Text} (some_text : message.isEmpty = false) (path code : Text) :
    (sheetFailure path message code : Action α) =
      (do
        emit fun time => Journal.Event.sheetFailed time path message (some code)
        report message) := by
  unfold sheetFailure
  simp only [Journal.Event.ofSheet_failed some_text]

/-- Loading a sheet goes on with what the file is read as. -/
theorem run_loadSheet_eq (path : Text) (rows cols : Int) (c : Console) :
    (loadSheet path rows cols).run c =
      (match Sheet.load c.files (.ofText path) rows cols with
        | .ok sheet => do
          emit fun time => Journal.Event.ofSheet time path (some sheet.labels.length) {} none
          return sheet
        | .error e =>
          match e with
          | .notFound _ => sheetFailure path e.message Journal.Event.sheetNotFound
          | .unreadable _ | .badScalar .tooDeep | .badScalar .codeTooLarge | .badSpec .valueTooLarge
          | .badSpec (.badCount .infinite) | .badSpec (.badCount (.wrongKind _)) =>
            stop (.broken (.sheet e))
          | _ => sheetFailure path e.message Journal.Event.sheetInvalid : Action Sheet).run c := rfl

/-- A sheet that is loaded is an event. -/
theorem run_loadSheet {c : Console} {path : Text} {rows cols : Int} {sheet : Sheet}
    (loaded : Sheet.load c.files (.ofText path) rows cols = .ok sheet) :
    (loadSheet path rows cols).run c =
      (.ok sheet, ((emit fun time =>
        Journal.Event.sheetLoaded time path (some sheet.labels.length)).run c).2) := by
  rw [run_loadSheet_eq, loaded]
  rfl

/-- A sheet that is not loaded is an event and is reported, or the command breaks off. -/
theorem run_loadSheet_error {c : Console} {path : Text} {rows cols : Int} {e : LoadError}
    (failed : Sheet.load c.files (.ofText path) rows cols = .error e) :
    (∃ message code, message.isEmpty = false ∧
        (loadSheet path rows cols).run c =
          (sheetFailure path message code : Action Sheet).run c) ∨
      ∃ f, (loadSheet path rows cols).run c = (stop (.broken f) : Action Sheet).run c := by
  rw [run_loadSheet_eq, failed]
  simp only
  split
  · exact .inl ⟨_, _, LoadError.message_isEmpty _, rfl⟩
  · exact .inr ⟨_, rfl⟩
  · exact .inr ⟨_, rfl⟩
  · exact .inr ⟨_, rfl⟩
  · exact .inr ⟨_, rfl⟩
  · exact .inr ⟨_, rfl⟩
  · exact .inr ⟨_, rfl⟩
  · exact .inl ⟨_, _, LoadError.message_isEmpty _, rfl⟩

/-! ## Parts that are alike -/

/-- The same has been printed on two consoles, and the same is held back. -/
structure Console.Shows (c d : Console) : Prop where
  out : c.out = d.out
  err : c.err = d.err
  held : c.held = d.held

/-- Two parts of commands end alike and print the same, where the same has been printed before. -/
def Alike (a b : Action α) : Prop :=
  ∀ c d : Console, c.Shows d → (a.run c).1 = (b.run d).1 ∧ (a.run c).2.Shows (b.run d).2

theorem alike_pure (a : α) : Alike (pure a) (pure a) := fun _ _ same => ⟨rfl, same⟩

theorem alike_stop (s : Stop) : Alike (stop s : Action α) (stop s) := fun _ _ same => ⟨rfl, same⟩

theorem Alike.bind {a b : Action α} {f g : α → Action β} (first : Alike a b)
    (rest : ∀ x, Alike (f x) (g x)) : Alike (a >>= f) (b >>= g) := by
  intro c d same
  rw [run_bind, run_bind]
  obtain ⟨ended, shows⟩ := first c d same
  generalize a.run c = left at ended shows ⊢
  generalize b.run d = right at ended shows ⊢
  obtain ⟨result, c'⟩ := left
  obtain ⟨result', d'⟩ := right
  obtain rfl : result = result' := ended
  cases result with
  | error s => exact ⟨rfl, shows⟩
  | ok x => exact rest x c' d' shows

theorem alike_orFault {ε : Type} (fault : ε → Fault) (r : Except ε α) :
    Alike (orFault fault r) (orFault fault r) := by
  intro c d same
  rw [run_orFault, run_orFault]
  exact ⟨rfl, same⟩

theorem alike_print (t : Text) : Alike (print t) (print t) := by
  intro c d same
  unfold print
  split
  · exact ⟨rfl, congrArg (· ++ _ ++ "\n") same.out, same.err, same.held⟩
  · exact ⟨rfl, same⟩

theorem alike_printError (t : Text) : Alike (printError t) (printError t) := by
  intro c d same
  refine ⟨rfl, same.out, ?_, rfl⟩
  show c.err ++ c.held ++ _ ++ "\n" = d.err ++ d.held ++ _ ++ "\n"
  rw [same.err, same.held]

theorem alike_showResult (config : Config) (result : Formula.Result) :
    Alike (showResult config result) (showResult config result) := by
  refine Alike.bind (alike_orFault _ _) fun precision => ?_
  refine Alike.bind (alike_orFault _ _) fun shown => ?_
  exact alike_print shown

/-- On the same console events that can be written leave the same to be printed, whichever they
are. -/
theorem shows_emit (e f : Text → Journal.Event) (c : Console)
    (e_fits : Json.Fits Json.depthLimit (e c.time).toValue)
    (f_fits : Json.Fits Json.depthLimit (f c.time).toValue) :
    ((emit e).run c).2.Shows ((emit f).run c).2 := by
  obtain ⟨_, warns⟩ := Journal.emit_alike c.emitter c.files e_fits f_fits
  rw [run_emit, run_emit]
  exact ⟨rfl, rfl, by simp only [warns]⟩

end Command

end SheetCalc
