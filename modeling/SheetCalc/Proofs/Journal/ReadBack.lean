import SheetCalc.Proofs.Journal.Written
import SheetCalc.Proofs.Text.Lines
import SheetCalc.Proofs.Text.Utf8

/-!
# The log reads back what was written

Reading a log gives the events that were written last, in the order in which they were written, and
all of them if the whole file is read (`values_written`).

The line of an event is printable ASCII whatever texts are in the event, so it is one line to the
reader as well. The part of the file that is read begins anywhere; what is left of the line that the
cut goes through is dropped, and what is behind it are whole lines (`reads_linesFrom`).
-/

namespace SheetCalc.Journal

open Text (Plain)
open Text.Utf8 (decode encode)

/-! ## Reading lines -/

/-- Some lines are read as some values, whatever has been read before and comes behind. -/
def Reads (lines : List (List Char)) (vs : List Value) : Prop :=
  ∀ done rest, Log.readLines done (lines ++ rest) = Log.readLines (vs.reverse ++ done) rest

theorem Reads.append {lines more : List (List Char)} {vs ws : List Value} (first : Reads lines vs)
    (second : Reads more ws) : Reads (lines ++ more) (vs ++ ws) := by
  intro done rest
  rw [List.append_assoc, first, second, List.reverse_append, List.append_assoc]

theorem Reads.values {lines : List (List Char)} {vs : List Value} (reads : Reads lines vs) :
    Log.readLines [] lines = .ok vs := by
  have all := reads [] []
  rw [List.append_nil, List.append_nil] at all
  rw [all]
  simp [Log.readLines]

/-- Blank lines are passed over. -/
theorem reads_blank {lines : List (List Char)}
    (blank : ∀ line ∈ lines, ∀ c ∈ line, Text.isBlank c = true) : Reads lines [] := by
  intro done rest
  induction lines with
  | nil => rfl
  | cons line lines ih =>
      have first : line.all Text.isBlank = true :=
        List.all_eq_true.mpr (blank line List.mem_cons_self)
      rw [List.cons_append, Log.readLines, if_pos first]
      exact ih fun other there => blank other (List.mem_cons_of_mem _ there)

/-- A line that is no JSON is passed over. -/
theorem reads_malformed {line : List Char} (malformed : Json.read line = .error .malformed) :
    Reads [line] [] := by
  intro done rest
  rw [List.singleton_append, Log.readLines, malformed]
  split <;> rfl

/-- The line of an event is not blank, since a bracket is in front of it. -/
theorem not_blank_event (e : Event) : (Json.lineText e.json).all Text.isBlank = false := by
  have bracket : Text.isBlank '\x7b' = false := by decide
  obtain ⟨rest, same⟩ : ∃ rest, Json.lineText e.json = '\x7b' :: rest := by
    rw [json_eq]
    unfold Json.lineText
    rw [Json.write]
    · exact ⟨_, rfl⟩
    · intro empty
      cases empty
  rw [same, List.all_cons, bracket, Bool.false_and]

theorem reads_event {e : Event} (readsBack : e.ReadsBack) :
    Reads [Json.lineText e.json] [e.json] := by
  intro done rest
  rw [List.singleton_append, Log.readLines, not_blank_event, readsBack]
  rfl

/-! ## The lines of pieces -/

/-- The line of a sound piece is blank, or it is one line to the reader and read as what it is. -/
theorem Piece.Sound.cases {p : Piece} (sound : p.Sound) :
    (p.event? = none ∧ ∀ c ∈ p.line, Text.isBlank c = true) ∨
      (Plain p.line ∧ Reads [p.line] (p.event?.toList.map Event.json)) := by
  cases p with
  | event e => exact .inr ⟨Json.plain_lineText _, reads_event sound⟩
  | junk line =>
      rcases sound with blank | ⟨plain, malformed⟩
      · exact .inl ⟨rfl, List.all_eq_true.mp blank⟩
      · exact .inr ⟨plain, reads_malformed malformed⟩

/-- The line of a piece is blank, or it is one line to the reader. -/
def Piece.Tidy (p : Piece) : Prop :=
  (∀ c ∈ p.line, Text.isBlank c = true) ∨ Plain p.line

theorem Piece.Sound.tidy {p : Piece} (sound : p.Sound) : p.Tidy :=
  sound.cases.imp And.right And.left

theorem lines_of_plain {line : List Char} (plain : Plain line) :
    Text.lines (line ++ ['\n']) = [line] :=
  Text.lines_of_no_end fun c there => Text.isLineEnd_of_isPlain (plain c there)

/-- The lines of a blank text are blank. -/
theorem blank_lines {cs line : List Char} (blank : ∀ c ∈ cs, Text.isBlank c = true)
    (there : line ∈ Text.lines (cs ++ ['\n'])) : ∀ c ∈ line, Text.isBlank c = true := by
  intro c inside
  rcases List.mem_append.mp (Text.mem_of_mem_lines there inside) with before | last
  · exact blank c before
  · rw [List.mem_singleton.mp last]
    decide

theorem Piece.Sound.reads {p : Piece} (sound : p.Sound) :
    Reads (Text.lines p.text) (p.event?.toList.map Event.json) := by
  unfold Piece.text
  rcases sound.cases with ⟨no_event, blank⟩ | ⟨plain, reads⟩
  · rw [no_event]
    exact reads_blank fun line there => blank_lines blank there
  · rw [lines_of_plain plain]
    exact reads

/-- **Whole pieces are read as the events among them.** -/
theorem reads_textOf {ps : List Piece} (sound : ∀ p ∈ ps, p.Sound) :
    Reads (Text.lines (textOf ps)) ((eventsOf ps).map Event.json) := by
  induction ps with
  | nil => exact fun _ _ => rfl
  | cons p ps ih =>
      have first := (sound p List.mem_cons_self).reads
      have rest := ih fun q there => sound q (List.mem_cons_of_mem _ there)
      have text : textOf (p :: ps) = p.line ++ '\n' :: textOf ps := by
        show (p.line ++ ['\n']) ++ textOf ps = _
        rw [List.append_assoc]
        rfl
      have events : eventsOf (p :: ps) = p.event?.toList ++ eventsOf ps := by
        cases p <;> exact eventsOf_append [_] ps
      rw [text, Text.lines_append_break, events, List.map_append]
      exact first.append rest

/-! ## The place of the cut -/

/-- A place inside the bytes of pieces is inside the bytes of one of them. -/
theorem exists_piece_at {ps : List Piece} {n : Nat} (inside : n < (bytesOf ps).length) :
    ∃ front p rest, ps = front ++ p :: rest ∧ (bytesOf front).length ≤ n ∧
      n < (bytesOf (front ++ [p])).length := by
  induction ps generalizing n with
  | nil => exact absurd inside (Nat.not_lt_zero n)
  | cons p ps ih =>
      have whole : bytesOf (p :: ps) = bytesOf [p] ++ bytesOf ps := bytesOf_append [p] ps
      by_cases here : n < (bytesOf [p]).length
      · exact ⟨[], p, ps, rfl, Nat.zero_le n, here⟩
      · rw [whole, List.length_append] at inside
        obtain ⟨front, q, rest, rfl, before, within⟩ :=
          ih (n := n - (bytesOf [p]).length) (by omega)
        have longer (qs : List Piece) :
            (bytesOf (p :: qs)).length = (bytesOf [p]).length + (bytesOf qs).length := by
          rw [← List.length_append, ← bytesOf_append]
          rfl
        refine ⟨p :: front, q, rest, rfl, ?_, ?_⟩
        · rw [longer]
          omega
        · rw [List.cons_append, longer]
          omega

/-- Bytes that are cut inside a piece are what is left of that one and all those behind it. -/
theorem drop_bytesOf {front : List Piece} {p : Piece} {n : Nat}
    (before : (bytesOf front).length ≤ n) (within : n < (bytesOf (front ++ [p])).length)
    (rest : List Piece) :
    n - (bytesOf front).length < (encode p.text).length ∧
      (bytesOf (front ++ p :: rest)).drop n =
        (encode p.text).drop (n - (bytesOf front).length) ++ bytesOf rest := by
  rw [bytesOf_append, bytesOf_singleton, List.length_append] at within
  have cut_in : n - (bytesOf front).length < (encode p.text).length := by omega
  refine ⟨cut_in, ?_⟩
  have behind : bytesOf (p :: rest) = encode p.text ++ bytesOf rest := by
    rw [← bytesOf_singleton]
    exact bytesOf_append [p] rest
  rw [bytesOf_append, behind, List.drop_append, List.drop_eq_nil_of_le before, List.nil_append]
  exact List.drop_append_of_le_length (Nat.le_of_lt cut_in)

/-- What is left of the line of a piece when it is cut, as the reader sees it without its first
line, is passed over. -/
theorem reads_cut {p : Piece} (tidy : p.Tidy) (k m : Nat) :
    Reads (Text.lines (List.replicate k Text.Utf8.replacement ++ (p.line.drop m ++ ['\n']))).tail
      [] := by
  have goes_on : ∀ c ∈ List.replicate k Text.Utf8.replacement, Text.isLineEnd c = false := by
    intro c there
    rw [List.eq_of_mem_replicate there]
    decide
  rw [Text.tail_lines_append goes_on (by simp)]
  -- The rest of a blank line may be several lines, all of them blank; that of a plain one is one.
  rcases tidy with blank | plain
  · refine reads_blank fun line there => ?_
    exact blank_lines (fun c inside => blank c (List.mem_of_mem_drop inside))
      (List.mem_of_mem_tail there)
  · rw [lines_of_plain (plain.subset fun _ => List.mem_of_mem_drop)]
    exact fun _ _ => rfl

theorem length_bytesOf_le {front ps : List Piece} (before : front <+: ps) :
    (bytesOf front).length ≤ (bytesOf ps).length := by
  obtain ⟨rest, rfl⟩ := before
  rw [bytesOf_append, List.length_append]
  omega

theorem decode_bytesOf (ps : List Piece) : decode (bytesOf ps) = textOf ps := by
  have read := Text.Utf8.decode_encode_append (textOf ps) []
  rw [List.append_nil, Text.Utf8.decode_nil, List.append_nil] at read
  exact read

theorem linesFrom_zero (ps : List Piece) :
    Log.linesFrom 0 (bytesOf ps) = Text.lines (textOf ps) := by
  unfold Log.linesFrom
  rw [List.drop_zero, decode_bytesOf, if_pos rfl]

/-- A piece is behind a cut piece if it begins behind the cut. -/
theorem prefix_iff_begins_behind {front rest before after : List Piece} {p q : Piece} {n : Nat}
    (same : front ++ p :: rest = before ++ q :: after) (reached : (bytesOf front).length ≤ n)
    (within : n < (bytesOf (front ++ [p])).length) :
    front ++ [p] <+: before ↔ n < (bytesOf before).length := by
  constructor
  · intro behind
    exact Nat.lt_of_lt_of_le within (length_bytesOf_le behind)
  · intro beyond
    have upper : front ++ [p] <+: front ++ p :: rest := ⟨rest, by simp⟩
    have lower : before <+: front ++ p :: rest := ⟨_, same.symm⟩
    rcases List.prefix_or_prefix_of_prefix upper lower with done | shorter
    · exact done
    · rcases List.prefix_concat_iff.mp shorter with equal | earlier
      · exact equal ▸ List.prefix_refl _
      · have := length_bytesOf_le earlier
        omega

/-- **What is seen from a cut on.** Without the first line there are the lines of what is left of
one piece, which are passed over, and those of the pieces that begin behind the cut. -/
theorem linesFrom_bytesOf {ps : List Piece} (tidy : ∀ p ∈ ps, p.Tidy) {n : Nat} (cut : n ≠ 0) :
    ∃ before after torn, ps = before ++ after ∧
      Log.linesFrom n (bytesOf ps) = torn ++ Text.lines (textOf after) ∧ Reads torn [] ∧
      ∀ front p rest, ps = front ++ p :: rest →
        (before <+: front ↔ n < (bytesOf front).length) := by
  unfold Log.linesFrom
  simp only [if_neg cut]
  by_cases inside : n < (bytesOf ps).length
  · obtain ⟨front, p, rest, rfl, before, within⟩ := exists_piece_at inside
    obtain ⟨cut_in, whole⟩ := drop_bytesOf before within rest
    unfold Piece.text at cut_in whole
    -- Everything up to the piece that is cut is gone, and everything behind it is whole.
    obtain ⟨k, m, read⟩ := Text.Utf8.decode_drop_encode (by decide) cut_in (bytesOf rest)
    have torn := reads_cut (tidy p (by simp)) k m
    rw [← List.append_assoc] at torn
    refine ⟨front ++ [p], rest, _, by simp, ?_, torn, ?_⟩
    · rw [whole, read, decode_bytesOf, ← List.append_assoc, Text.lines_append_break,
        List.tail_append_of_ne_nil (Text.lines_ne_nil (by simp))]
    · intro front' q rest' same
      exact prefix_iff_begins_behind same before within
  · refine ⟨ps, [], [], by simp, ?_, fun _ _ => rfl, ?_⟩
    · rw [List.drop_eq_nil_of_le (by omega), Text.Utf8.decode_nil]
      rfl
    · intro front p rest same
      have shorter := length_bytesOf_le (show front <+: ps from ⟨_, same.symm⟩)
      refine iff_of_false ?_ (by omega)
      intro all
      have := all.length_le
      rw [same, List.length_append, List.length_cons] at this
      omega

/-- What is read from a cut on are the events that begin behind it. -/
theorem reads_linesFrom {ps : List Piece} (sound : ∀ p ∈ ps, p.Sound) {n : Nat} (cut : n ≠ 0) :
    ∃ before after, ps = before ++ after ∧
      Reads (Log.linesFrom n (bytesOf ps)) ((eventsOf after).map Event.json) ∧
      ∀ front e rest, ps = front ++ .event e :: rest → n < (bytesOf front).length →
        before <+: front := by
  obtain ⟨before, after, torn, rfl, seen, passed, behind⟩ :=
    linesFrom_bytesOf (fun p there => (sound p there).tidy) cut
  refine ⟨before, after, rfl, ?_, ?_⟩
  · rw [seen]
    exact passed.append (reads_textOf fun p there => sound p (List.mem_append_right _ there))
  · intro front e rest same beyond
    exact (behind front _ rest same).mpr beyond

/-! ## Reading a log -/

/-- **The log reads back what was written.** If reading JSON undoes writing it for the events of a
log, the log is read without a failure, wherever the part begins that is read. There are the events
of the last pieces in their order: of all pieces if the whole file is read, and otherwise at least
of those that begin behind the beginning of that part. -/
theorem values_written {log : Log} {ps : List Piece} {fs : Files} (written : Written log ps fs)
    (some_tail : 0 ≤ log.tail) (readsBack : ∀ e ∈ eventsOf ps, e.ReadsBack) :
    let start := ((bytesOf ps).length - log.tail).toNat
    ∃ before after, ps = before ++ after ∧
      log.values fs = .ok ((eventsOf after).map Event.json) ∧
      (start = 0 → before = []) ∧
      ∀ front e rest, ps = front ++ .event e :: rest → start < (bytesOf front).length →
        before <+: front := by
  intro start
  have sound := sound_written written readsBack
  rcases holds_written written with holds | ⟨rfl, none_there, _⟩
  · have read : log.values fs = Log.readLines [] (Log.linesFrom start (bytesOf ps)) := by
      have not_negative : ¬ log.tail < 0 := by omega
      unfold Log.values
      simp only [holds.has, holds.find, holds.read, if_neg not_negative]
      rfl
    by_cases cut : start = 0
    · refine ⟨[], ps, rfl, ?_, fun _ => rfl, fun front _ _ _ _ => List.nil_prefix⟩
      rw [read, cut]
      unfold Log.linesFrom
      rw [List.drop_zero, decode_bytesOf, if_pos rfl]
      exact (reads_textOf sound).values
    · obtain ⟨before, after, parts, reads, later⟩ := reads_linesFrom sound cut
      refine ⟨before, after, parts, ?_, fun whole => absurd whole cut, later⟩
      rw [read]
      exact reads.values
  · refine ⟨[], [], rfl, ?_, fun _ => rfl, fun front _ _ _ _ => List.nil_prefix⟩
    unfold Log.values
    rw [Files.has_of_notFound none_there]
    rfl

/-- A line that is no JSON. -/
def greeting : List Char := ['h', 'e', 'l', 'l', 'o']

theorem isJunk_greeting : IsJunk greeting :=
  .inr ⟨by decide, by with_unfolding_all rfl⟩

/-- An event of a sheet. -/
def loaded : Event :=
  { time := "t", level := .info, type := .sheetLoaded,
    context := [(.text "sheet_path", .text "a.yaml")] }

set_option maxRecDepth 10000 in
theorem loaded_readsBack : loaded.ReadsBack := by
  unfold Event.ReadsBack
  rw [json_eq]
  with_unfolding_all rfl

/-- The event that stands in a log behind a line that is no JSON is read, where the part that is
read begins inside of that line. -/
theorem values_written_tail :
    let log : Log := { project := .ofText "p", tail := (encode (Log.line loaded)).length + 3 }
    let before : Files :=
      { nodes := [(["p"], .dir), (["p", "logs"], .dir),
          (["p", "logs", "events.ndjson"], .file (encode (greeting ++ ['\n'])))] }
    ((log.append loaded).run before).1 = .ok () ∧
      log.values ((log.append loaded).run before).2 = .ok [loaded.json] := by
  intro log before
  have ran : ((log.append loaded).run before).1 = .ok () := by rfl
  refine ⟨ran, ?_⟩
  let empty : Files :=
    { nodes := [(["p"], .dir), (["p", "logs"], .dir),
        (["p", "logs", "events.ndjson"], .file [])] }
  have fresh : log.Fresh empty := .inl (by rfl)
  have added : empty.append log.path (encode (greeting ++ ['\n'])) = .ok before := by rfl
  have tail : log.tail = (encode (Log.line loaded)).length + 3 := rfl
  -- Nothing else counts of the log, the files and the event; they are too large to be looked into.
  clear_value log before empty
  have comes_back := loaded_readsBack
  have line : encode (Piece.event loaded).text = encode (Log.line loaded) := rfl
  generalize loaded = e at *
  have written : Written log ([.junk greeting] ++ [.event e]) ((log.append e).run before).2 :=
    .event (.junk (.fresh fresh) isJunk_greeting added) (Prod.ext ran rfl)
  have events : eventsOf ([.junk greeting] ++ [.event e]) = [e] := rfl
  have readsBack : ∀ e' ∈ eventsOf ([.junk greeting] ++ [.event e]), e'.ReadsBack := by
    intro e' there
    rw [events] at there
    rw [List.mem_singleton.mp there]
    exact comes_back
  obtain ⟨front, rest, parts, read, _, behind⟩ := values_written written (by omega) readsBack
  -- The event begins six bytes behind the beginning of the file, and that part three.
  have six : (bytesOf [.junk greeting]).length = 6 := by decide
  have size : (bytesOf ([.junk greeting] ++ [.event e])).length =
      6 + (encode (Log.line e)).length := by
    rw [bytesOf_append, List.length_append, six, bytesOf_singleton, line]
  have inside := behind [.junk greeting] e [] rfl (by omega)
  have none_left : eventsOf front = [] := by
    rcases List.prefix_cons_iff.mp inside with rfl | ⟨more, rfl, nothing⟩
    · rfl
    · rw [List.prefix_nil.mp nothing]
      rfl
  rw [parts, eventsOf_append, none_left, List.nil_append] at events
  rw [read, events]
  rfl

end SheetCalc.Journal
