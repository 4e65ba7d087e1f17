import SheetCalc.Journal.Move
import SheetCalc.Proofs.Journal.Appended
import SheetCalc.Proofs.Journal.Outcomes
import SheetCalc.Proofs.Procedure

/-!
# Emitting events

A program sends events to the log of a project, or nowhere, and emits events, and in between the
files and what the system lets it do may become other ones (`Move`).

Which log is in force is a matter of the moves that have decided on one (`decisions`), and whether
there has been a warning a matter of the events that could not be written (`failures`): both are
said of one move (`log_next`, `warned_next`, `warnings_next`) and from there of all of them
(`emission`). Emitting an event goes wrong once at most, if a warning is due that cannot be printed;
and where there is room for the beginning of a line only, that is added and nothing is said
(`emission_refuted`).
-/

namespace SheetCalc.Journal

open Procedure (run_bind_ok run_bind_error run_tryCatch)
open Text.Utf8 (encode)

namespace Scene

/-- How a move ends. -/
def outcome (w : Scene) (m : Move) : Except Mishap Unit :=
  (m.steps.run w).1

/-- What there is after a move. -/
def next (w : Scene) (m : Move) : Scene :=
  (m.steps.run w).2

/-- What there is after moves. -/
def after (w : Scene) (moves : List Move) : Scene :=
  moves.foldl next w

/-- The number of bytes of the line of an event that there is room for. -/
def fitting (w : Scene) (e : Event) : Nat :=
  w.conditions.fitting (encode (Log.line e)).length

end Scene

theorem run_ofExcept {α : Type} (r : Except Mishap α) (w : Scene) :
    (MonadExcept.ofExcept r : Work α).run w = (r, w) := by
  cases r <;> rfl

/-! ## What has been decided and what has failed -/

namespace Scene

variable {α : Type}

/-- What moves give rise to one after the other, each where those before it have led. -/
def trace (f : Scene → Move → Option α) : Scene → List Move → List α
  | _, [] => []
  | w, m :: moves => (f w m).toList ++ trace f (w.next m) moves

/-- The log of a project of which as much is read as a setting says. Without it two mebibytes are
read, and a setting that is no integer leads to no log. -/
def logReading (project : Path) : Option Value → Option Log
  | none | some .null => some { project, tail := 2097152 }
  | some v => v.toInt.toOption.map fun tail => { project, tail }

/-- Where events go that are sent to a project, if its configuration is sound: nowhere if the
configuration says so, and otherwise to its own log. -/
def destination? (project : Path) (config : Config) : Option (Option Log) :=
  let log? := logReading project (config.setting? "logging_tail_bytes")
  match config.setting? "logging_enabled" with
  | none => log?.map some
  | some v => if v.truthy then log?.map some else some none

/-- What a move decides about where events go. Attaching a project decides nothing if something is
wrong with its configuration. -/
def decision? (w : Scene) : Move → Option (Option Log)
  | .attach project given? =>
    (given? <|> (Config.load w.files project).toOption).bind (destination? project)
  | .detach => some none
  | .emit _ | .disturb _ _ => none

/-- Whether a warning could be printed when a move emits an event that goes to a log but cannot be
written. -/
def failure? (w : Scene) : Move → Option Bool
  | .emit e => w.emitter.log.bind fun log =>
    match (writeEvent log e).run w with
    | (.ok (), _) => none
    | (.error _, _) => some w.conditions.prints
  | _ => none

theorem failure?_of_sends {w : Scene} {log : Log} (sends : w.emitter.log = some log) (e : Event) :
    w.failure? (.emit e) = match (writeEvent log e).run w with
      | (.ok (), _) => none
      | (.error _, _) => some w.conditions.prints := by
  simp only [failure?, sends, Option.bind_some]

/-- The decisions that moves have come to. -/
def decisions (w : Scene) (moves : List Move) : List (Option Log) :=
  trace decision? w moves

/-- For each event that could not be written, whether a warning could be printed. -/
def failures (w : Scene) (moves : List Move) : List Bool :=
  trace failure? w moves

theorem decisions_cons (w : Scene) (m : Move) (moves : List Move) :
    w.decisions (m :: moves) = (w.decision? m).toList ++ (w.next m).decisions moves := rfl

theorem failures_cons (w : Scene) (m : Move) (moves : List Move) :
    w.failures (m :: moves) = (w.failure? m).toList ++ (w.next m).failures moves := rfl

/-- Where events go after moves: where the last decision says, or to where they went before. -/
def inForce (w : Scene) (moves : List Move) : Option Log :=
  (w.decisions moves).getLast?.getD w.emitter.log

end Scene

/-! ## Attaching a project -/

theorem logReading_eq (project : Path) (config : Config) :
    Scene.logReading project (config.setting? "logging_tail_bytes") =
      (tailOf config).toOption.map fun tail => { project, tail } := by
  unfold tailOf Scene.logReading
  cases config.setting? "logging_tail_bytes" with
  | none => rfl
  | some v => cases v <;> rfl

/-- Attaching a project whose configuration is known does what has been decided on and nothing
else. -/
theorem attach_toOption (em : Emitter) (project : Path) (config : Config) :
    (em.attach project config).toOption =
      (Scene.destination? project config).map fun log => { em with log } := by
  unfold Emitter.attach isEnabled Scene.destination?
  rw [logReading_eq]
  have kept : ((tailOf config).map fun tail => { em with log := some { project, tail } }).toOption =
      (((tailOf config).toOption.map fun tail => ({ project, tail } : Log)).map some).map
        fun log => { em with log } := by
    cases tailOf config <;> rfl
  cases config.setting? "logging_enabled" with
  | none => exact kept
  | some v =>
      simp only [Option.map_some, Option.getD_some]
      by_cases on : v.truthy = true
      · rw [if_pos on, if_pos on]
        exact kept
      · rw [if_neg on, if_neg on]
        rfl

/-- The steps for a known configuration come to what attaching the project comes to. -/
theorem run_attachWith (w : Scene) (project : Path) (config : Config) :
    (attachWith project config).run w = match w.emitter.attach project config with
      | .ok emitter => (.ok (), { w with emitter })
      | .error e => (.error (.attach (.badTail e)), w) := by
  unfold attachWith Emitter.attach
  cases isEnabled config with
  | false => rfl
  | true =>
      rw [if_pos rfl, if_pos rfl]
      cases tailOf config <;> rfl

/-- **Attaching a project** sends events where it has been decided, or fails and changes nothing. -/
theorem run_attach (w : Scene) (project : Path) (given? : Option Config) :
    (∃ log?, w.decision? (.attach project given?) = some log? ∧
        (Move.attach project given?).steps.run w = (.ok (), { w with emitter.log := log? })) ∨
      ∃ e, w.decision? (.attach project given?) = none ∧
        (Move.attach project given?).steps.run w = (.error (.attach e), w) := by
  have known (config : Config) :
      (∃ log?, Scene.destination? project config = some log? ∧
          (attachWith project config).run w = (.ok (), { w with emitter.log := log? })) ∨
        ∃ e, Scene.destination? project config = none ∧
          (attachWith project config).run w = (.error (.attach e), w) := by
    have decided := attach_toOption w.emitter project config
    rw [run_attachWith]
    cases attached : w.emitter.attach project config with
    | error e =>
        rw [attached] at decided
        exact .inr ⟨_, Option.map_eq_none_iff.mp decided.symm, rfl⟩
    | ok emitter =>
        rw [attached] at decided
        obtain ⟨log?, led, rfl⟩ := Option.map_eq_some_iff.mp decided.symm
        exact .inl ⟨log?, led, rfl⟩
  cases given? with
  | some config => exact known config
  | none =>
      have steps : (Move.attach project none).steps.run w =
          (findConfig project none >>= attachWith project).run w := rfl
      have found : (findConfig project none).run w =
        ((Config.load w.files project).mapError (.attach ∘ .badConfig), w) := run_ofExcept _ w
      have decided : w.decision? (.attach project none) =
        (Config.load w.files project).toOption.bind (Scene.destination? project) := rfl
      rw [steps, decided]
      cases loaded : Config.load w.files project with
      | error e =>
          rw [loaded] at found
          exact .inr ⟨_, rfl, run_bind_error found _⟩
      | ok config =>
          rw [loaded] at found
          rw [run_bind_ok found]
          exact known config

/-! ## Writing an event -/

theorem run_onFiles (change : FileChange FileError Unit) (w : Scene) :
    (onFiles change).run w = ((change.run w.files).1.mapError (.append ∘ .file),
      { w with files := (change.run w.files).2 }) := by
  have unfolded : (onFiles change).run w =
      (MonadExcept.ofExcept ((change.run w.files).1.mapError (.append ∘ .file)) : Work Unit).run
        { w with files := (change.run w.files).2 } := rfl
  rw [unfolded, run_ofExcept]

theorem run_readyDir (log : Log) (w : Scene) :
    (readyDir log).run w =
      if w.conditions.makes then
        (((FileChange.makeDirs log.dir).run w.files).1.mapError (.append ∘ .file),
          { w with files := ((FileChange.makeDirs log.dir).run w.files).2 })
      else
        match w.files.find log.dir.text with
        | .ok .dir => (.ok (), w)
        | _ => (.error .denied, w) := by
  have unfolded : (readyDir log).run w = (if w.conditions.makes then
      onFiles (FileChange.makeDirs log.dir)
    else
      match w.files.find log.dir.text with
      | .ok .dir => return
      | _ => throw .denied : Work Unit).run w := rfl
  rw [unfolded]
  split
  · exact run_onFiles _ w
  · split <;> rfl

theorem run_addBytes (log : Log) (bytes : List UInt8) (w : Scene) :
    (addBytes log bytes).run w =
      let count := w.conditions.fitting bytes.length
      if w.conditions.opens then
        match w.files.append log.path (bytes.take count) with
        | .ok files =>
          if count = 0 then (.error .full, { w with files })
          else (.ok (), { w with files, conditions := w.conditions.filled count })
        | .error e => (.error (.append (.file e)), w)
      else (.error .denied, w) := by
  have change := run_onFiles (FileChange.step (·.append log.path
    (bytes.take (w.conditions.fitting bytes.length)))) w
  rw [FileChange.run_step] at change
  have unfolded : (addBytes log bytes).run w = (do
      unless w.conditions.opens do throw .denied
      onFiles (FileChange.step (·.append log.path
        (bytes.take (w.conditions.fitting bytes.length))))
      if w.conditions.fitting bytes.length = 0 then throw .full
      modify fun v =>
        { v with conditions := w.conditions.filled (w.conditions.fitting bytes.length) } :
        Work Unit).run w := rfl
  rw [unfolded]
  cases w.conditions.opens with
  | false => rfl
  | true =>
      simp only [if_true]
      cases appended : w.files.append log.path (bytes.take (w.conditions.fitting bytes.length)) with
      | error e =>
          rw [appended] at change
          rw [run_bind_error change]
          rfl
      | ok files =>
          rw [appended] at change
          rw [run_bind_ok change]
          show _ = if w.conditions.fitting bytes.length = 0 then _ else _
          by_cases none_fits : w.conditions.fitting bytes.length = 0
          · rw [if_pos none_fits, if_pos none_fits]
            rfl
          · rw [if_neg none_fits, if_neg none_fits]
            rfl

/-- Where nothing is denied, an event is written as `Log.write` does it. -/
theorem run_writeEvent_free {w : Scene} (free : w.conditions = {}) (log : Log) (e : Event) :
    (writeEvent log e).run w = (((log.write e).run w.files).1.mapError .append,
      { w with files := ((log.write e).run w.files).2 }) := by
  have some_byte : (encode (Log.line e)).length ≠ 0 := by
    simp [Log.line, encode, String.utf8EncodeChar]
  rw [Log.run_write, Log.run_append]
  unfold writeEvent
  cases Json.isWritable Json.depthLimit e.toValue with
  | false => rfl
  | true =>
      have ready := run_readyDir log w
      simp only [free, if_true] at ready ⊢
      rcases made : (FileChange.makeDirs log.dir).run w.files with ⟨error | _, files⟩
      · rw [made] at ready
        rw [run_bind_error ready]
        rfl
      · rw [made] at ready
        rw [run_bind_ok ready, run_addBytes]
        simp only [Conditions.fitting, Option.map_none, Option.getD_none, List.take_length,
          some_byte, if_false, if_true]
        cases files.append log.path (encode (Log.line e)) <;> simp [Conditions.filled] <;> rfl

/-- No file holds anything else than before, but that the file of a log may have been made. -/
def Spared (log : Log) (fs after : Files) : Prop :=
  after.bytes? = fs.bytes? ∨ AddsBytes log [] fs after

/-- What comes of writing bytes: as many as there is room for are added, or none and then it
fails. -/
inductive Writes (w : Scene) (log : Log) (bytes : List UInt8) : Except Mishap Unit × Scene → Prop
  | added {files} : 0 < w.conditions.fitting bytes.length →
      AddsBytes log (bytes.take (w.conditions.fitting bytes.length)) w.files files →
      Writes w log bytes (.ok (),
        { w with files, conditions := w.conditions.filled (w.conditions.fitting bytes.length) })
  | failed {files} (mishap : Mishap) : Spared log w.files files →
      Writes w log bytes (.error mishap, { w with files })

theorem writes_addBytes (w : Scene) (log : Log) (bytes : List UInt8) :
    Writes w log bytes ((addBytes log bytes).run w) := by
  rw [run_addBytes]
  simp only
  split
  · cases appended : w.files.append log.path (bytes.take (w.conditions.fitting bytes.length)) with
    | error e => exact .failed _ (.inl rfl)
    | ok files =>
        have added := Files.bytes?_append appended
        simp only
        split
        · next none_fits =>
            rw [none_fits] at added
            exact .failed .full (.inr added)
        · next some_fit => exact .added (Nat.pos_of_ne_zero some_fit) added
  · exact .failed .denied (.inl rfl)

/-- Whether the directory of a log can be made or not, no file holds anything else than before. -/
theorem bytes?_readyDir (log : Log) (w : Scene) :
    ∃ ended files, (readyDir log).run w = (ended, { w with files }) ∧
      files.bytes? = w.files.bytes? := by
  rw [run_readyDir]
  split
  · exact ⟨_, _, rfl, FileChange.bytes?_makeDirs log.dir w.files⟩
  · split
    · exact ⟨_, _, rfl, rfl⟩
    · exact ⟨_, _, rfl, rfl⟩

theorem Writes.congr {w : Scene} {log : Log} {bytes : List UInt8} {files : Files}
    {done : Except Mishap Unit × Scene} (same : files.bytes? = w.files.bytes?)
    (writes : Writes { w with files } log bytes done) : Writes w log bytes done := by
  cases writes with
  | added some_room added =>
      unfold AddsBytes at added
      simp only [same] at added
      exact .added some_room added
  | failed mishap spared =>
      unfold Spared AddsBytes at spared
      simp only [same] at spared
      exact .failed mishap spared

theorem writes_writeEvent (w : Scene) (log : Log) (e : Event) :
    Writes w log (encode (Log.line e)) ((writeEvent log e).run w) := by
  unfold writeEvent
  cases Json.isWritable Json.depthLimit e.toValue with
  | false => exact .failed _ (.inl rfl)
  | true =>
      obtain ⟨ended, files, ran, same⟩ := bytes?_readyDir log w
      simp only [if_true]
      cases ended with
      | error mishap =>
          rw [run_bind_error ran]
          exact .failed mishap (.inl same)
      | ok _ =>
          rw [run_bind_ok ran]
          exact (writes_addBytes { w with files } log _).congr same

/-! ## Emitting an event -/

theorem run_warn (w : Scene) :
    warn.run w =
      if w.emitter.warned then (.ok (), w)
      else if w.conditions.prints then
        (.ok (), { w with emitter.warned := true, warnings := w.warnings + 1 })
      else (.error .unprinted, { w with emitter.warned := true }) := by
  obtain ⟨files, ⟨makes, opens, room, prints⟩, ⟨log?, warned⟩, warnings⟩ := w
  cases warned with
  | true => rfl
  | false => cases prints <;> rfl

theorem files_warn (w : Scene) : (warn.run w).2.files = w.files := by
  rw [run_warn]
  split
  · rfl
  · split <;> rfl

/-- A warning goes wrong if it is due and cannot be printed. -/
theorem warn_error_iff {w : Scene} :
    (∃ mishap, (warn.run w).1 = .error mishap) ↔
      w.emitter.warned = false ∧ w.conditions.prints = false := by
  rw [run_warn]
  cases w.emitter.warned with
  | true => simp
  | false => cases w.conditions.prints <;> simp

theorem run_emit (w : Scene) (e : Event) :
    (Move.emit e).steps.run w = match w.emitter.log with
      | none => (.ok (), w)
      | some log =>
        match (writeEvent log e).run w with
        | (.ok (), after) => (.ok (), after)
        | (.error _, after) => warn.run after := by
  have unfolded : (Move.emit e).steps.run w = (match w.emitter.log with
    | none => return
    | some log => tryCatch (writeEvent log e) fun _ => warn : Work Unit).run w := rfl
  rw [unfolded]
  cases w.emitter.log with
  | none => rfl
  | some log =>
      simp only
      rw [run_tryCatch]
      rcases (writeEvent log e).run w with ⟨_ | _, after⟩ <;> rfl

namespace Scene

/-- What comes of emitting an event, given the log in force and whether a warning could be printed
if the event cannot be written. As much of its line is added as there is room for. -/
inductive Emitted (w : Scene) (e : Event) : Option Log → Option Bool → Prop
  | nowhere : w.outcome (.emit e) = .ok () → w.next (.emit e) = w → Emitted w e none none
  | added {log} : w.outcome (.emit e) = .ok () → 0 < w.fitting e →
      AddsBytes log ((encode (Log.line e)).take (w.fitting e)) w.files (w.next (.emit e)).files →
      Emitted w e (some log) none
  | lost {log printed} : Spared log w.files (w.next (.emit e)).files →
      ((∃ mishap, w.outcome (.emit e) = .error mishap) ↔
        w.emitter.warned = false ∧ printed = false) →
      Emitted w e (some log) (some printed)

theorem emitted (w : Scene) (e : Event) : w.Emitted e w.emitter.log (w.failure? (.emit e)) := by
  have ran := run_emit w e
  cases sends : w.emitter.log with
  | none =>
      rw [sends] at ran
      have not_failed : w.failure? (.emit e) = none := by
        simp only [failure?, sends, Option.bind_none]
      rw [not_failed]
      exact .nowhere (congrArg Prod.fst ran) (congrArg Prod.snd ran)
  | some log =>
      rw [sends] at ran
      have writes := writes_writeEvent w log e
      rw [failure?_of_sends sends]
      simp only at ran
      generalize (writeEvent log e).run w = written at ran writes ⊢
      cases writes with
      | added some_room added =>
          refine .added (congrArg Prod.fst ran) some_room ?_
          rw [next, ran]
          exact added
      | failed mishap spared =>
          refine .lost ?_ ?_
          · rw [next, ran, files_warn]
            exact spared
          · rw [outcome, ran, warn_error_iff]

/-! ### One move -/

/-- Emitting an event leaves in force the log that is in force. The first event that cannot be
written is noted, and there is a warning if that can be printed. -/
theorem emit_next (w : Scene) (e : Event) :
    (w.next (.emit e)).emitter =
      { w.emitter with warned := w.emitter.warned || (w.failure? (.emit e)).isSome } ∧
    (w.next (.emit e)).warnings =
      w.warnings +
        if w.emitter.warned then 0 else ((w.failure? (.emit e)).map Bool.toNat).getD 0 := by
  have failed : w.failure? (.emit e) = (w.emitter.log.bind fun log =>
    match (writeEvent log e).run w with
    | (.ok (), _) => none
    | (.error _, _) => some w.conditions.prints) := rfl
  rw [next, run_emit, failed]
  cases w.emitter.log with
  | none => simp
  | some log =>
      simp only [Option.bind_some]
      have writes := writes_writeEvent w log e
      generalize (writeEvent log e).run w = written at writes ⊢
      cases writes with
      | added some_room added => simp
      | failed mishap spared =>
          simp only [run_warn]
          obtain ⟨files, conditions, ⟨log?, warned⟩, warnings⟩ := w
          cases warned with
          | true => simp
          | false => cases conditions.prints <;> simp

theorem log_next (w : Scene) (m : Move) :
    (w.next m).emitter.log = (w.decision? m).getD w.emitter.log := by
  cases m with
  | attach project given? =>
      rcases run_attach w project given? with ⟨log?, decided, ran⟩ | ⟨e, decided, ran⟩
      · rw [next, ran, decided]
        rfl
      · rw [next, ran, decided]
        rfl
  | detach => rfl
  | disturb files conditions => rfl
  | emit e =>
      rw [(w.emit_next e).1]
      rfl

theorem attach_next (w : Scene) (project : Path) (given? : Option Config) :
    (w.next (.attach project given?)).emitter.warned = w.emitter.warned ∧
      (w.next (.attach project given?)).warnings = w.warnings := by
  rcases run_attach w project given? with ⟨log?, _, ran⟩ | ⟨e, _, ran⟩
  · rw [next, ran]
    exact ⟨rfl, rfl⟩
  · rw [next, ran]
    exact ⟨rfl, rfl⟩

theorem warned_next (w : Scene) (m : Move) :
    (w.next m).emitter.warned = (w.emitter.warned || (w.failure? m).isSome) := by
  cases m with
  | attach project given? => simp [(w.attach_next project given?).1, failure?]
  | detach => exact (Bool.or_false _).symm
  | disturb files conditions => exact (Bool.or_false _).symm
  | emit e => rw [(w.emit_next e).1]

theorem warnings_next (w : Scene) (m : Move) :
    (w.next m).warnings =
      w.warnings + if w.emitter.warned then 0 else ((w.failure? m).map Bool.toNat).getD 0 := by
  cases m with
  | attach project given? => simp [(w.attach_next project given?).2, failure?]
  | detach =>
      simp only [failure?, Option.map_none, Option.getD_none, ite_self]
      rfl
  | disturb files conditions =>
      simp only [failure?, Option.map_none, Option.getD_none, ite_self]
      rfl
  | emit e => exact (w.emit_next e).2

/-! ### All moves -/

theorem log_after (w : Scene) (moves : List Move) :
    (w.after moves).emitter.log = w.inForce moves := by
  induction moves generalizing w with
  | nil => rfl
  | cons m moves ih =>
      have later := ih (w.next m)
      unfold inForce at later ⊢
      rw [decisions_cons, List.getLast?_append, after, List.foldl_cons]
      rw [after] at later
      rw [later, log_next]
      cases ((w.next m).decisions moves).getLast? <;> cases w.decision? m <;> rfl

theorem warned_after (w : Scene) (moves : List Move) :
    (w.after moves).emitter.warned = (w.emitter.warned || !(w.failures moves).isEmpty) := by
  induction moves generalizing w with
  | nil => exact (Bool.or_false _).symm
  | cons m moves ih =>
      have later := ih (w.next m)
      rw [after, List.foldl_cons]
      rw [after] at later
      rw [later, warned_next, failures_cons]
      cases w.failure? m <;> simp

/-- There is a warning for the first event that cannot be written, if it can be printed, and for no
other one. -/
theorem warnings_after (w : Scene) (moves : List Move) :
    (w.after moves).warnings =
      w.warnings +
        if w.emitter.warned then 0 else ((w.failures moves).head?.map Bool.toNat).getD 0 := by
  induction moves generalizing w with
  | nil => simp [after, failures, trace]
  | cons m moves ih =>
      have later := ih (w.next m)
      rw [after, List.foldl_cons]
      rw [after] at later
      rw [later, warnings_next, warned_next, failures_cons]
      cases w.emitter.warned <;> cases w.failure? m <;> simp

end Scene

/-! ## The emitter in a run -/

/-- **Events go where the last decision says.** After any moves, and whatever has become of the
files and of what the system allows meanwhile:

* the log in force is that of the project that was attached last with nothing wrong, or none if
  events are not kept with its configuration or have been sent nowhere since then;
* one warning has been printed if an event could not be written and the warning could be printed for
  the first one, and none otherwise;
* emitting an event adds its line to the log in force, if there is one and the event can be written
  and there is room for the line, or as much of the line as there is room for; otherwise no file
  holds anything else than before, but that the file of the log may have been made. It goes wrong
  exactly if the event is the first that cannot be written and the warning cannot be printed;
* attaching a project changes nothing if it fails;
* when it has been decided that events go nowhere, they are not written until it is decided
  otherwise. -/
theorem emission (w : Scene) (calm : w.emitter.warned = false) (moves : List Move) :
    let now := w.after moves
    now.emitter.log = w.inForce moves ∧
      now.warnings = w.warnings + ((w.failures moves).head?.map Bool.toNat).getD 0 ∧
      (∀ e, now.Emitted e (w.inForce moves) (now.failure? (.emit e)) ∧
        ((∃ mishap, now.outcome (.emit e) = .error mishap) ↔
          w.failures moves = [] ∧ now.failure? (.emit e) = some false)) ∧
      (∀ e log, w.inForce moves = some log → now.failure? (.emit e) = none →
        (∀ n ∈ now.conditions.room, (encode (Log.line e)).length ≤ n) →
          AddsLine log e now.files (now.next (.emit e)).files) ∧
      (∀ project given? mishap, now.outcome (.attach project given?) = .error mishap →
        now.next (.attach project given?) = now) ∧
      ∀ m rest, now.decision? m = some none → (∀ log, some log ∉ (now.next m).decisions rest) →
        ∀ e, (((now.next m).after rest).next (.emit e)).files =
          ((now.next m).after rest).files := by
  intro now
  have in_force : now.emitter.log = w.inForce moves := w.log_after moves
  have warned : now.emitter.warned = !(w.failures moves).isEmpty := by
    rw [show now.emitter.warned = _ from w.warned_after moves, calm, Bool.false_or]
  refine ⟨in_force, ?_, ?_, ?_, ?_, ?_⟩
  · have warnings := w.warnings_after moves
    rwa [calm] at warnings
  · intro e
    have emitted := now.emitted e
    rw [in_force] at emitted
    refine ⟨emitted, ?_⟩
    generalize w.inForce moves = log? at emitted
    generalize now.failure? (.emit e) = failed at emitted ⊢
    cases emitted with
    | nowhere ended same => simp [ended]
    | added ended some_room added => simp [ended]
    | lost spared ended =>
        rw [ended, warned]
        cases w.failures moves <;> simp
  · intro e log sends written enough
    have emitted := now.emitted e
    rw [in_force, sends, written] at emitted
    have whole : now.fitting e = (encode (Log.line e)).length := by
      unfold Scene.fitting Conditions.fitting
      cases room : now.conditions.room with
      | none => rfl
      | some n => exact Nat.min_eq_left (enough n room)
    cases emitted with
    | added ended some_room added =>
        rw [whole, List.take_length] at added
        exact addsLine_of_addsBytes added
  · intro project given? mishap failed
    rcases run_attach now project given? with ⟨log?, _, ran⟩ | ⟨e, _, ran⟩
    · rw [Scene.outcome, ran] at failed
      cases failed
    · rw [Scene.next, ran]
  · intro m rest nowhere kept e
    have none_now : ((now.next m).after rest).emitter.log = none := by
      rw [Scene.log_after]
      unfold Scene.inForce
      cases last : ((now.next m).decisions rest).getLast? with
      | none =>
          rw [Scene.log_next, nowhere]
          rfl
      | some log? =>
          cases log? with
          | none => rfl
          | some log => exact absurd (List.mem_of_getLast? last) (kept log)
    have emitted := ((now.next m).after rest).emitted e
    rw [none_now] at emitted
    generalize ((now.next m).after rest).failure? (.emit e) = failed at emitted
    cases emitted with
    | nowhere _ same => rw [same]

/-- **Where nothing is denied, emitting an event comes to what `Emitter.emit` comes to**, and does
not go wrong. -/
theorem run_emit_free {w : Scene} (free : w.conditions = {}) (e : Event) :
    let done := w.emitter.emit w.files e
    (Move.emit e).steps.run w = (.ok (), { w with
      files := done.files
      emitter := done.emitter
      warnings := w.warnings + done.warns.toNat }) := by
  intro done
  rw [run_emit]
  obtain ⟨files, conditions, ⟨log?, warned⟩, warnings⟩ := w
  obtain rfl : conditions = {} := free
  cases log? with
  | none => rfl
  | some log =>
      simp only [done, Emitter.emit]
      rw [run_writeEvent_free rfl]
      rcases (log.write e).run files with ⟨_ | _, _⟩
      · simp only [run_warn]
        cases warned <;> rfl
      · rfl

/-! ### Lost events -/

/-- An event with a text and a number as keys of a mapping, between which there is no order. -/
def mixed : Event :=
  { time := "t", level := .info, type := .sheetLoaded
    context := [(.text "sheet_path", .mapping [(.text "a", .null), (.int 1, .null)])] }

theorem write_mixed (log : Log) (fs : Files) :
    (log.write mixed).run fs = (.error .unwritable, fs) := by
  have unwritable : Json.isWritable Json.depthLimit mixed.toValue = false := by
    rw [Json.isWritable, Bool.and_eq_false_iff]
    exact .inr (by decide)
  rw [Log.run_write, unwritable]
  rfl

/-- The event of a sheet that is gone. -/
def lostSheet : Event :=
  .sheetFailed "t" "a.yaml" "gone" none

theorem isWritable_lostSheet : Json.isWritable Json.depthLimit lostSheet.toValue = true :=
  Json.isWritable_iff.mpr (Event.storable_sheetFailed _ _ _ _).fits

theorem failure?_lostSheet {w : Scene} (sends : w.emitter.log = some { project := .ofText "." })
    (empty : w.files = {}) (free : w.conditions = {}) : w.failure? (.emit lostSheet) = none := by
  have written : ((Log.write { project := .ofText "." } lostSheet).run {}).1 = .ok () := by
    rw [Log.run_write, isWritable_lostSheet]
    rfl
  rw [Scene.failure?_of_sends sends, run_writeEvent_free free, empty]
  simp only [written]
  rfl

/-- Files where a log cannot have its directory. -/
def blocked : Files :=
  { nodes := [(["logs"], .file [])] }

/-- An event is lost that cannot be written, and another one while the log cannot have its
directory. That another project cannot be attached then makes no difference to the log in force. -/
theorem emission_blocked :
    let log : Log := { project := .ofText "." }
    let badTail : Config := [(.text "logging_tail_bytes", .text "many")]
    let start : Scene := { files := {} }
    let moves : List Move := [.attach (.ofText ".") (some []), .emit mixed, .disturb blocked {},
      .emit lostSheet, .attach (.ofText "q") (some badTail), .disturb {} {}]
    let now := start.after moves
    start.emitter.warned = false ∧ now.warnings = 1 ∧
      start.inForce moves = some log ∧ now.failure? (.emit lostSheet) = none ∧
      (∀ n ∈ now.conditions.room, (encode (Log.line lostSheet)).length ≤ n) ∧
      AddsLine log lostSheet now.files (now.next (.emit lostSheet)).files ∧
      (∃ mishap, now.outcome (.attach (.ofText "q") (some badTail)) = .error mishap ∧
        now.next (.attach (.ofText "q") (some badTail)) = now) ∧
      now.decision? .detach = some none ∧
      (((now.next .detach).after []).next (.emit lostSheet)).files =
        ((now.next .detach).after []).files := by
  intro log badTail start moves now
  obtain ⟨_, warnings, _, adds, attaches, detached⟩ := emission start rfl moves
  have in_force : start.inForce moves = some log := rfl
  have sends : now.emitter.log = some log := (start.log_after moves).trans in_force
  have written : now.failure? (.emit lostSheet) = none := failure?_lostSheet sends rfl rfl
  refine ⟨rfl, ?_, in_force, written, nofun, adds lostSheet log in_force written nofun, ?_, rfl,
    detached .detach [] rfl nofun lostSheet⟩
  · have lost : (start.next (.attach (.ofText ".") (some []))).failure? (.emit mixed) =
      some true := by
      have sends : (start.next (.attach (.ofText ".") (some []))).emitter.log = some log := rfl
      rw [Scene.failure?_of_sends sends, run_writeEvent_free rfl, write_mixed]
      rfl
    rw [warnings, Scene.failures_cons, Scene.failures_cons, lost]
    rfl
  · have failed : now.outcome (.attach (.ofText "q") (some badTail)) =
        .error (.attach (.badTail (.notAnInteger "many"))) := rfl
    exact ⟨_, failed, attaches _ _ _ failed⟩

/-- A line begins with a brace and ends with a line feed. -/
theorem one_lt_length_line (e : Event) : 1 < (encode (Log.line e)).length := by
  have opened : ∃ rest, Log.line e = '\x7b' :: rest ++ ['\n'] := by
    unfold Log.line
    rw [show Json.sortKeys e.toValue = _ from json_eq e]
    exact ⟨_, rfl⟩
  obtain ⟨rest, line⟩ := opened
  simp [line, encode, String.utf8EncodeChar]

/-- **A program can be told that an event is lost, and a line can be torn without a warning.** Where
the directory of the log cannot be made and the error output takes nothing, emitting an event goes
wrong; and where there is room for one byte, that byte of the line is added and nothing is said. -/
theorem emission_refuted :
    let log : Log := { project := .ofText "." }
    let start : Scene := { files := {} }
    let deaf := start.after [.attach (.ofText ".") (some []),
      .disturb {} { makes := false, prints := false }]
    let tight := start.after [.attach (.ofText ".") (some []), .disturb {} { room := some 1 }]
    (∃ mishap, deaf.outcome (.emit lostSheet) = .error mishap) ∧
      tight.outcome (.emit lostSheet) = .ok () ∧ (tight.next (.emit lostSheet)).warnings = 0 ∧
      1 < (encode (Log.line lostSheet)).length ∧
      AddsBytes log ((encode (Log.line lostSheet)).take 1) {}
        (tight.next (.emit lostSheet)).files := by
  intro log start deaf tight
  constructor
  · have sends : deaf.emitter.log = some log := rfl
    have denied : (readyDir log).run deaf = (.error .denied, deaf) := by
      rw [run_readyDir]
      rfl
    have ran : (writeEvent log lostSheet).run deaf = (.error .denied, deaf) := by
      unfold writeEvent
      rw [isWritable_lostSheet]
      exact run_bind_error denied _
    have lost : deaf.failure? (.emit lostSheet) = some false := by
      rw [Scene.failure?_of_sends sends, ran]
      rfl
    have emitted := deaf.emitted lostSheet
    rw [sends, lost] at emitted
    cases emitted with
    | lost _ ended => exact ended.mpr ⟨rfl, rfl⟩
  · have sends : tight.emitter.log = some log := rfl
    have some_bytes := one_lt_length_line lostSheet
    have one_fits : tight.fitting lostSheet = 1 := Nat.min_eq_right (Nat.le_of_lt some_bytes)
    have ready : (readyDir log).run tight =
        (.ok (), { tight with files := ((FileChange.makeDirs log.dir).run {}).2 }) := by
      rw [run_readyDir]
      rfl
    have written : tight.failure? (.emit lostSheet) = none := by
      rw [Scene.failure?_of_sends sends]
      unfold writeEvent
      rw [isWritable_lostSheet]
      simp only [if_true]
      rw [run_bind_ok ready, run_addBytes]
      simp only [Scene.fitting] at one_fits
      simp only [one_fits]
      rfl
    have emitted := tight.emitted lostSheet
    rw [sends, written] at emitted
    have warnings := (tight.emit_next lostSheet).2
    rw [written] at warnings
    cases emitted with
    | added ended some_room added =>
      rw [one_fits] at added
      exact ⟨ended, warnings, some_bytes, added⟩

end SheetCalc.Journal
