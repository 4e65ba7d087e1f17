import SheetCalc.Journal.Emitter
import SheetCalc.Proofs.Journal.Written

/-!
# What becomes of an event

An event that is emitted adds its line at the end of the log, if there is a log and the line can be
written, and otherwise no file holds anything else than before (`Emitter.emits`). Where events go is
left as it is.
-/

namespace SheetCalc.Journal

/-- Bytes have been added at the end of a log, the file of which is made if there is none. All other
files hold what they held. -/
def AddsBytes (log : Log) (bytes : List UInt8) (fs after : Files) : Prop :=
  ∃ place, after.resolve log.path.text = .ok place ∧
    after.bytes? = Function.update fs.bytes? place (some ((fs.bytes? place).getD [] ++ bytes))

/-- The line of an event, and no more, has been added at the end of a log. All other files hold what
they held. -/
structure AddsLine (log : Log) (e : Event) (fs after : Files) : Prop where
  one_line : ∃ text, Text.Plain text ∧ Log.line e = text ++ ['\n']
  added : AddsBytes log (Text.Utf8.encode (Log.line e)) fs after

theorem addsLine_of_addsBytes {log : Log} {e : Event} {fs after : Files}
    (added : AddsBytes log (Text.Utf8.encode (Log.line e)) fs after) : AddsLine log e fs after :=
  ⟨⟨Json.lineText e.json, Json.plain_lineText e.json, rfl⟩, added⟩

theorem addsLine_of_append {log : Log} {e : Event} {fs after : Files}
    (ran : (log.append e).run fs = (.ok (), after)) : AddsLine log e fs after := by
  refine addsLine_of_addsBytes ?_
  obtain ⟨ready, made, appended⟩ := Log.append_ok ran
  have same := FileChange.bytes?_makeDirs log.dir fs
  rw [made] at same
  unfold AddsBytes
  rw [← same]
  exact Files.bytes?_append appended

/-- An event that is not written changes what no file holds. Directories may have been made for
it. -/
theorem bytes?_write_error {log : Log} {e : Event} {fs after : Files} {error : AppendError}
    (ran : (log.write e).run fs = (.error error, after)) : after.bytes? = fs.bytes? := by
  rw [Log.run_write] at ran
  split at ran
  · rcases failed : (log.append e).run fs with ⟨_ | _, done⟩
    · rw [failed] at ran
      cases ran
      rw [Log.append_error failed]
      exact FileChange.bytes?_makeDirs log.dir fs
    · rw [failed] at ran
      cases ran
  · cases ran
    rfl

/-- What emitting an event does to the files: nothing if events go nowhere, and otherwise a line is
added to the log, or no file holds anything else than before if the event cannot be written. -/
inductive Emits : Option Log → Event → Files → Files → Prop
  | nowhere {e fs} : Emits none e fs fs
  | added {log e fs after} : (log.write e).run fs = (.ok (), after) → AddsLine log e fs after →
      Emits (some log) e fs after
  | failed {log e fs after error} : (log.write e).run fs = (.error error, after) →
      after.bytes? = fs.bytes? → Emits (some log) e fs after

namespace Emitter

theorem emits (em : Emitter) (fs : Files) (e : Event) : Emits em.log e fs (em.emit fs e).files := by
  unfold emit
  cases em.log with
  | none => exact .nowhere
  | some log =>
      simp only
      rcases ran : (log.write e).run fs with ⟨error | _, after⟩
      · exact .failed ran (bytes?_write_error ran)
      · exact .added ran (addsLine_of_append (Log.write_ok.mp ran).2)

/-- Emitting an event leaves in force the log that is in force. -/
theorem log_emit (em : Emitter) (fs : Files) (e : Event) : (em.emit fs e).emitter.log = em.log := by
  unfold emit
  cases sends : em.log with
  | none => exact sends
  | some log =>
      simp only
      rcases (log.write e).run fs with ⟨_ | _, after⟩
      · rfl
      · exact sends

end Emitter

end SheetCalc.Journal
