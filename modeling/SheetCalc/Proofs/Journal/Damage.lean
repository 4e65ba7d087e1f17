import SheetCalc.Proofs.Journal.ReadBack

/-!
# Logs with any bytes in them

A log is a file that anything may have been written to. A line that is blank or no JSON is passed
over, but the readers take whatever else is read for the mapping of an event. They go through a log
without a failure exactly if none of its lines is more than that: JSON that is no mapping, or a
mapping with a field of a kind that is not looked for there (`reads_iff_harmless`).
-/

namespace SheetCalc.Journal

open Text (Plain)
open Text.Utf8 (encode)

/-! ## What the readers rely on -/

/-- A value that can be a key: it is no list and no mapping. -/
def IsScalar (v : Value) : Prop :=
  v.toKey?.isSome = true

/-- The fields of a mapping have the kinds that are looked for in those of an event. -/
structure Proper (es : Entries Key Value) : Prop where
  type : ∀ v, es.get? (.text "event_type") = some v → IsScalar v
  context : ∀ v, es.get? (.text "context") = some v → ∃ fields, v = .mapping fields
  code : isOutcome (es.get? (.text "event_type")) = .ok true →
    ∀ v, es.get? (.text "error_code") = some v → v.truthy = true → IsScalar v

/-- A line that no reader stumbles over: it is passed over, or it holds the mapping of an event. -/
def Harmless (line : List Char) : Prop :=
  line.all Text.isBlank = true ∨ Json.read line = .error .malformed ∨
    ∃ es, Json.read line = .ok (.mapping es) ∧ Proper es

/-- The value on a line that is not passed over. -/
def valueOn? (line : List Char) : Option Value :=
  if line.all Text.isBlank then none else (Json.read line).toOption

/-! ## Reading the lines -/

/-- A line that is passed over or read. -/
def Loads (line : List Char) : Prop :=
  line.all Text.isBlank = true ∨ Json.read line = .error .malformed ∨ ∃ v, Json.read line = .ok v

theorem readLines_ok {lines : List (List Char)} (loads : ∀ line ∈ lines, Loads line)
    (done : List Value) :
    Log.readLines done lines = .ok (done.reverse ++ lines.filterMap valueOn?) := by
  induction lines generalizing done with
  | nil => simp [Log.readLines]
  | cons line lines ih =>
      have others := ih fun other there => loads other (List.mem_cons_of_mem line there)
      unfold Log.readLines
      by_cases blank : line.all Text.isBlank = true
      · simp [blank, others, valueOn?]
      · rcases loads line List.mem_cons_self with passed | malformed | ⟨v, read⟩
        · exact absurd passed blank
        · simp [malformed, others, valueOn?, Except.toOption]
        · simp [blank, read, others, valueOn?, Except.toOption]

theorem loads_of_readLines {lines : List (List Char)} {done vs : List Value}
    (read : Log.readLines done lines = .ok vs) : ∀ line ∈ lines, Loads line := by
  induction lines generalizing done with
  | nil => intro _ none_there; cases none_there
  | cons line lines ih =>
      unfold Log.readLines at read
      intro other there
      by_cases blank : line.all Text.isBlank = true
      · rw [if_pos blank] at read
        rcases List.mem_cons.mp there with rfl | behind
        · exact .inl blank
        · exact ih read other behind
      · rw [if_neg blank] at read
        split at read
        · next v value =>
            rcases List.mem_cons.mp there with rfl | behind
            · exact .inr (.inr ⟨v, value⟩)
            · exact ih read other behind
        · next malformed =>
            rcases List.mem_cons.mp there with rfl | behind
            · exact .inr (.inl malformed)
            · exact ih read other behind
        · cases read
        · cases read

/-- A file is read line by line. -/
theorem values_of_holds {log : Log} {fs : Files} {bytes : List UInt8}
    (holds : fs.Holds log.path bytes) (some_tail : 0 ≤ log.tail) :
    log.values fs = Log.readLines [] (Log.linesFrom (bytes.length - log.tail).toNat bytes) := by
  have not_negative : ¬ log.tail < 0 := by omega
  unfold Log.values
  simp only [holds.has, holds.find, holds.read, if_neg not_negative]
  rfl

/-! ## Selecting -/

theorem fieldFits_mapping (name : String) (wanted : Text) (es : Entries Key Value) :
    fieldFits name wanted (.mapping es) =
      .ok (wanted.isEmpty || isText wanted (es.get? (.text name))) := by
  unfold fieldFits fieldOf
  by_cases empty : wanted.isEmpty = true
  · simp [empty]
  · simp [empty, Except.map]

theorem labelFits_mapping (wanted : Text) (es : Entries Key Value) :
    labelFits wanted (.mapping es) =
      if wanted.isEmpty then .ok true
      else match es.get? (.text "context") with
        | some context => fieldFits "label" wanted context
        | none => .ok false := by
  unfold labelFits fieldOf
  split <;> rfl

/-- The field of a value, if it is a mapping with such a field. -/
def field? (name : String) : Value → Option Value
  | .mapping es => Entries.get? (.text name) es
  | _ => none

/-- Whether an event has all names that a filter asks for. -/
def Filter.accepts (f : Filter) (v : Value) : Bool :=
  has f.level (field? "level" v) && has f.type (field? "event_type" v)
    && has f.label ((field? "context" v).bind (field? "label"))
    && has f.code (field? "error_code" v)
where
  /-- Whether a field has the name that is asked for, if one is. -/
  has (wanted : Text) (found : Option Value) : Bool :=
    wanted.isEmpty || isText wanted found

/-- Of a mapping with proper fields it can be said whether it has what a filter asks for. -/
theorem Proper.fits_eq {es : Entries Key Value} (proper : Proper es) (f : Filter) :
    f.fits (.mapping es) = .ok (f.accepts (.mapping es)) := by
  have label : labelFits f.label (.mapping es) =
      .ok (Filter.accepts.has f.label
        ((field? "context" (.mapping es)).bind (field? "label"))) := by
    rw [labelFits_mapping, Filter.accepts.has, field?]
    by_cases empty : f.label.isEmpty = true
    · simp [empty]
    · rw [if_neg empty]
      cases there : Entries.get? (.text "context") es with
      | none => simp [empty, isText]
      | some context =>
          obtain ⟨fields, rfl⟩ := proper.context context there
          exact fieldFits_mapping "label" f.label fields
  have field (name : String) (wanted : Text) : fieldFits name wanted (.mapping es) =
      .ok (Filter.accepts.has wanted (field? name (.mapping es))) :=
        fieldFits_mapping name wanted es
  unfold Filter.fits Filter.accepts
  rw [field, field, field, label]
  simp only [bind, Except.bind]
  cases Filter.accepts.has f.level (field? "level" (.mapping es)) <;>
    cases Filter.accepts.has f.type (field? "event_type" (.mapping es)) <;>
    cases Filter.accepts.has f.label
      ((field? "context" (.mapping es)).bind (field? "label")) <;> rfl

theorem Proper.fits {es : Entries Key Value} (proper : Proper es) (f : Filter) :
    ∃ fits, f.fits (.mapping es) = .ok fits :=
  ⟨_, proper.fits_eq f⟩

/-- **The first values are selected that a filter lets through**, behind those that have been
selected before: as many as are wanted, but one at least if there is one. -/
theorem selectFrom_eq {f : Filter} {lets : Value → Bool} {vs : List Value}
    (asked : ∀ v ∈ vs, f.fits v = .ok (lets v)) (wanted : Int) (done : List Value) :
    selectFrom f wanted done vs =
      .ok (done.reverse ++ (vs.filter lets).take (max 1 (wanted - done.length)).toNat) := by
  induction vs generalizing done with
  | nil => simp [selectFrom]
  | cons v vs ih =>
      have others := ih fun w there => asked w (List.mem_cons_of_mem v there)
      unfold selectFrom
      rw [asked v List.mem_cons_self]
      simp only [bind, Except.bind]
      cases first : lets v with
      | false =>
          rw [List.filter_cons_of_neg (by simp [first])]
          exact others done
      | true =>
          rw [if_pos rfl, List.filter_cons_of_pos first]
          -- They are counted with the one that has been added.
          have counted : ((v :: done).length : Int) = done.length + 1 := by simp
          split
          · next enough =>
              have one : (max 1 (wanted - done.length)).toNat = 1 := by omega
              rw [one]
              simp [pure, Except.pure]
          · next more =>
              have fewer : (max 1 (wanted - done.length)).toNat =
                  (max 1 (wanted - (v :: done).length)).toNat + 1 := by omega
              rw [others, fewer]
              simp

/-- If a filter can be asked of all values, some of them are selected. -/
theorem selectFrom_ok {f : Filter} {vs : List Value} (fits : ∀ v ∈ vs, ∃ fits, f.fits v = .ok fits)
    (wanted : Int) (done : List Value) :
    ∃ selected, selectFrom f wanted done vs = .ok selected ∧
      ∀ v ∈ selected, v ∈ done ∨ v ∈ vs := by
  have asked : ∀ v ∈ vs, f.fits v = .ok ((f.fits v).toOption.getD false) := by
    intro v there
    obtain ⟨answer, same⟩ := fits v there
    rw [same]
    rfl
  refine ⟨_, selectFrom_eq asked wanted done, ?_⟩
  intro v there
  rcases List.mem_append.mp there with before | selected
  · exact .inl (List.mem_reverse.mp before)
  · exact .inr (List.mem_filter.mp (List.mem_of_mem_take selected)).1

/-- Where nothing is selected, a filter has been asked of all values. -/
theorem fits_of_selectFrom {f : Filter} {vs : List Value}
    (none_fits : ∀ v ∈ vs, f.fits v ≠ .ok true) {wanted : Int} {done selected : List Value}
    (ran : selectFrom f wanted done vs = .ok selected) : ∀ v ∈ vs, f.fits v = .ok false := by
  induction vs with
  | nil => intro _ none_there; cases none_there
  | cons v vs ih =>
      unfold selectFrom at ran
      have first := none_fits v List.mem_cons_self
      cases asked : f.fits v with
      | error e =>
          rw [asked] at ran
          cases ran
      | ok fits =>
          cases fits with
          | true => exact absurd asked first
          | false =>
              rw [asked] at ran
              intro w there
              rcases List.mem_cons.mp there with rfl | behind
              · exact asked
              · exact ih (fun w there => none_fits w (List.mem_cons_of_mem v there)) ran w behind

/-! ## Counting -/

theorem isOutcome_ok_iff {field : Option Value} :
    (∃ outcome, isOutcome field = .ok outcome) ↔ ∀ v, field = some v → IsScalar v := by
  unfold isOutcome IsScalar
  cases field with
  | none => simp
  | some v => cases v <;> simp [Value.toKey?]

theorem outcomeKey_ok_iff {field : Option Value} :
    (∃ k, outcomeKey field = .ok k) ↔ ∀ v, field = some v → v.truthy = true → IsScalar v := by
  unfold outcomeKey IsScalar
  cases field with
  | none => simp
  | some v =>
      by_cases truthy : v.truthy = true
      · cases v <;> simp [truthy, Value.toKey?]
      · simp [truthy]

theorem count_mapping (counts : Entries Key Nat) (es : Entries Key Value) :
    count counts (.mapping es) = do
      if ← isOutcome (es.get? (.text "event_type")) then
        let k ← outcomeKey (es.get? (.text "error_code"))
        return counts.put k ((counts.get? k).getD 0 + 1)
      else return counts := rfl

/-- What is counted or passed over is a mapping with two proper fields. -/
theorem count_ok_iff {counts : Entries Key Nat} {es : Entries Key Value} :
    (∃ after, count counts (.mapping es) = .ok after) ↔
      (∀ v, es.get? (.text "event_type") = some v → IsScalar v) ∧
        (isOutcome (es.get? (.text "event_type")) = .ok true →
          ∀ v, es.get? (.text "error_code") = some v → v.truthy = true → IsScalar v) := by
  rw [← isOutcome_ok_iff, ← outcomeKey_ok_iff, count_mapping]
  cases isOutcome (es.get? (.text "event_type")) with
  | error e => simp [bind, Except.bind]
  | ok outcome =>
      cases outcome with
      | false => simp [bind, Except.bind, pure, Except.pure]
      | true => cases outcomeKey (es.get? (.text "error_code")) <;>
          simp [bind, Except.bind, pure, Except.pure]

theorem mapping_of_count {counts after : Entries Key Nat} {v : Value}
    (counted : count counts v = .ok after) : ∃ es, v = .mapping es := by
  cases v with
  | mapping es => exact ⟨es, rfl⟩
  | _ => cases counted

/-- Counting goes through if each value can be counted or passed over, whatever the counts are. -/
theorem foldlM_count_ok_iff {vs : List Value} (counts : Entries Key Nat) :
    (∃ after, vs.foldlM count counts = .ok after) ↔
      ∀ v ∈ vs, ∃ after, count [] v = .ok after := by
  have any (v : Value) (counts : Entries Key Nat) :
      (∃ after, count counts v = .ok after) ↔ ∃ after, count [] v = .ok after := by
    cases v with
    | mapping es => rw [count_ok_iff, count_ok_iff]
    | _ => exact ⟨fun ⟨_, counted⟩ => (nomatch counted), fun ⟨_, counted⟩ => nomatch counted⟩
  induction vs generalizing counts with
  | nil => simp [pure, Except.pure]
  | cons v vs ih =>
      rw [List.foldlM_cons, List.forall_mem_cons, ← any v counts]
      cases count counts v with
      | error e => simp [bind, Except.bind]
      | ok after => simpa [bind, Except.bind] using ih after

/-! ## A label that no event has -/

/-- The text under `label` in the context of an event. -/
def labelIn? : Value → Option Text
  | .mapping es =>
    match Entries.get? (.text "context") es with
    | some (.mapping fields) =>
      match Entries.get? (.text "label") fields with
      | some (.text t) => some t
      | _ => none
    | _ => none
  | _ => none

theorem exists_fresh (ts : List Text) : ∃ t : Text, t.isEmpty = false ∧ t ∉ ts := by
  have bounded : ∃ n, ∀ t ∈ ts, t.length ≤ n := by
    induction ts with
    | nil => exact ⟨0, fun _ none_there => nomatch none_there⟩
    | cons t ts ih =>
        obtain ⟨n, bound⟩ := ih
        refine ⟨max t.length n, ?_⟩
        intro u there
        rcases List.mem_cons.mp there with rfl | behind
        · exact Nat.le_max_left _ _
        · exact Nat.le_trans (bound u behind) (Nat.le_max_right _ _)
  obtain ⟨n, bound⟩ := bounded
  -- A text is none of these if it is longer than all of them.
  refine ⟨⟨List.replicate (n + 1) (.ofChar 'x')⟩, rfl, ?_⟩
  intro there
  have short := bound _ there
  have long : (⟨List.replicate (n + 1) (.ofChar 'x')⟩ : Text).length = n + 1 :=
    List.length_replicate
  omega

/-- A filter that names only a label asks for nothing else. -/
theorem fits_label (t : Text) (v : Value) : Filter.fits { label := t } v = labelFits t v := by
  have unfolded : Filter.fits { label := t } v =
      (labelFits t v >>= fun fits => if !fits then pure false else pure true) := rfl
  rw [unfolded]
  cases labelFits t v with
  | error e => rfl
  | ok fits => cases fits <;> rfl

theorem isText_iff {t : Text} {field : Option Value} :
    isText t field = true ↔ field = some (.text t) := by
  unfold isText
  split
  · simp
  · simp_all

theorem labelIn_of_fits {t : Text} (some_label : t.isEmpty = false) {v : Value}
    (fits : Filter.fits { label := t } v = .ok true) : labelIn? v = some t := by
  rw [fits_label] at fits
  cases v with
  | mapping es =>
      rw [labelFits_mapping, some_label] at fits
      unfold labelIn?
      simp only [Bool.false_eq_true, if_false] at fits ⊢
      split at fits
      · next context there =>
          cases context with
          | mapping fields =>
              rw [fieldFits_mapping, some_label, Bool.false_or, Except.ok.injEq, isText_iff] at fits
              rw [there]
              simp only [fits]
          | _ => 
              unfold fieldFits at fits
              rw [some_label] at fits
              cases fits
      · cases fits
  | _ =>
      unfold labelFits at fits
      rw [some_label] at fits
      cases fits

/-- What a reader who looks for a label that no event has comes across. -/
theorem context_of_fits {t : Text} (some_label : t.isEmpty = false) {es : Entries Key Value}
    {fits : Bool} (asked : Filter.fits { label := t } (.mapping es) = .ok fits) (v : Value)
    (there : es.get? (.text "context") = some v) : ∃ fields, v = .mapping fields := by
  rw [fits_label, labelFits_mapping, some_label, there] at asked
  cases v with
  | mapping fields => exact ⟨fields, rfl⟩
  | _ =>
      unfold fieldFits at asked
      rw [some_label] at asked
      cases asked

/-! ## The log -/

/-- The readers go through values that are mappings with proper fields. -/
theorem reads_of_proper {vs : List Value} (proper : ∀ v ∈ vs, ∃ es, v = .mapping es ∧ Proper es) :
    (∀ (f : Filter) (wanted : Int), ∃ selected, selectFrom f wanted [] vs.reverse = .ok selected ∧
      ∀ v ∈ selected, ∃ es, v = .mapping es) ∧ ∃ counts, vs.foldlM count [] = .ok counts := by
  constructor
  · intro f wanted
    have fits : ∀ v ∈ vs.reverse, ∃ fits, f.fits v = .ok fits := by
      intro v there
      obtain ⟨es, rfl, es_proper⟩ := proper v (List.mem_reverse.mp there)
      exact es_proper.fits f
    obtain ⟨selected, ran, within⟩ := selectFrom_ok fits wanted []
    refine ⟨selected, ran, ?_⟩
    intro v there
    rcases within v there with none_there | inside
    · cases none_there
    · obtain ⟨es, same, _⟩ := proper v (List.mem_reverse.mp inside)
      exact ⟨es, same⟩
  · rw [foldlM_count_ok_iff]
    intro v there
    obtain ⟨es, rfl, es_proper⟩ := proper v there
    exact count_ok_iff.mpr ⟨es_proper.type, es_proper.code⟩

/-- The count fails at what is no mapping, and at the two fields that it looks at; the context is
looked at by a reader who asks for a label, and goes on to the end if no event has it. -/
theorem proper_of_reads {vs : List Value}
    (selects : ∀ f : Filter, ∃ selected, selectFrom f selectionLimit [] vs.reverse = .ok selected)
    (counts : ∃ counts, vs.foldlM count [] = .ok counts) :
    ∀ v ∈ vs, ∃ es, v = .mapping es ∧ Proper es := by
  obtain ⟨label, some_label, fresh⟩ := exists_fresh (vs.filterMap labelIn?)
  have none_fits : ∀ v ∈ vs.reverse, Filter.fits { label } v ≠ .ok true := by
    intro v there fits
    refine fresh (List.mem_filterMap.mpr ⟨v, List.mem_reverse.mp there, ?_⟩)
    exact labelIn_of_fits some_label fits
  obtain ⟨selected, ran⟩ := selects { label }
  have asked := fits_of_selectFrom none_fits ran
  intro v there
  obtain ⟨after, counted⟩ := (foldlM_count_ok_iff []).mp counts v there
  obtain ⟨es, rfl⟩ := mapping_of_count counted
  obtain ⟨type, code⟩ := count_ok_iff.mp ⟨after, counted⟩
  exact ⟨es, rfl, type, context_of_fits some_label (asked _ (List.mem_reverse.mpr there)), code⟩

theorem valueOn_eq_some {line : List Char} {v : Value} :
    valueOn? line = some v ↔ line.all Text.isBlank = false ∧ Json.read line = .ok v := by
  unfold valueOn?
  cases line.all Text.isBlank <;> cases Json.read line <;> simp [Except.toOption]

/-- **The readers go through a log with any bytes in it exactly if its lines are harmless.** Then
every selection gives mappings, and the outcomes can be counted; otherwise there is a selection that
fails, or the count does. -/
theorem reads_iff_harmless {log : Log} {fs : Files} {bytes : List UInt8}
    (holds : fs.Holds log.path bytes) (some_tail : 0 ≤ log.tail) :
    ((∀ (f : Filter) (limit : Int), ∃ vs, select log fs f limit = .ok vs ∧
        ∀ v ∈ vs, ∃ es, v = .mapping es) ∧ ∃ counts, tally log fs = .ok counts) ↔
      ∀ line ∈ Log.linesFrom (bytes.length - log.tail).toNat bytes, Harmless line := by
  have read := values_of_holds holds some_tail
  generalize Log.linesFrom (bytes.length - log.tail).toNat bytes = lines at read
  unfold select tally
  constructor
  · rintro ⟨selects, counts⟩ line there
    cases values : Log.readLines [] lines with
    | error e =>
        rw [read, values] at counts
        obtain ⟨_, counted⟩ := counts
        cases counted
    | ok vs =>
        rw [read, values] at counts
        have selected (f : Filter) :
            ∃ selected, selectFrom f selectionLimit [] vs.reverse = .ok selected := by
          obtain ⟨selected, ran, _⟩ := selects f selectionLimit
          rw [read, values] at ran
          exact ⟨selected, ran⟩
        have proper := proper_of_reads selected counts
        have loads := loads_of_readLines values
        rw [readLines_ok loads] at values
        cases values
        rcases loads line there with blank | malformed | ⟨v, value⟩
        · exact .inl blank
        · exact .inr (.inl malformed)
        · cases blank : line.all Text.isBlank with
          | true => exact .inl blank
          | false =>
              obtain ⟨es, rfl, es_proper⟩ := proper v
                (List.mem_filterMap.mpr ⟨line, there, valueOn_eq_some.mpr ⟨blank, value⟩⟩)
              exact .inr (.inr ⟨es, value, es_proper⟩)
  · intro harmless
    have loads : ∀ line ∈ lines, Loads line := by
      intro line there
      exact (harmless line there).imp_right (Or.imp_right fun ⟨es, value, _⟩ => ⟨_, value⟩)
    have proper : ∀ v ∈ lines.filterMap valueOn?, ∃ es, v = .mapping es ∧ Proper es := by
      intro v there
      obtain ⟨line, inside, value⟩ := List.mem_filterMap.mp there
      obtain ⟨not_blank, value⟩ := valueOn_eq_some.mp value
      rcases harmless line inside with blank | malformed | ⟨es, mapping, es_proper⟩
      · rw [not_blank] at blank
        cases blank
      · rw [malformed] at value
        cases value
      · rw [mapping] at value
        cases value
        exact ⟨es, rfl, es_proper⟩
    obtain ⟨selects, counts⟩ := reads_of_proper proper
    rw [read, readLines_ok loads]
    exact ⟨fun f limit => selects f (min limit selectionLimit), counts⟩

/-- The files of a project whose log holds a line and nothing else. -/
def filesWith (line : List Char) : Files :=
  { nodes := [(["p"], .dir), (["p", "logs"], .dir),
      (["p", "logs", "events.ndjson"], .file (encode (line ++ ['\n'])))] }

/-- The log of that project. -/
def damaged : Log := { project := .ofText "p" }

theorem holds_filesWith (line : List Char) :
    (filesWith line).Holds damaged.path (encode (line ++ ['\n'])) :=
  ⟨["p", "logs", "events.ndjson"], by rfl, by rfl⟩

theorem linesFrom_filesWith {line : List Char} (plain : Plain line)
    (short : (encode (line ++ ['\n'])).length ≤ 2097152) :
    Log.linesFrom ((encode (line ++ ['\n'])).length - damaged.tail).toNat
      (encode (line ++ ['\n'])) = [line] := by
  have whole : ((encode (line ++ ['\n'])).length - damaged.tail).toNat = 0 := by
    have : damaged.tail = 2097152 := rfl
    omega
  have decoded := Text.Utf8.decode_encode_append (line ++ ['\n']) []
  rw [List.append_nil, Text.Utf8.decode_nil, List.append_nil] at decoded
  unfold Log.linesFrom
  rw [whole, List.drop_zero, decoded, if_pos rfl, lines_of_plain plain]

/-- A log whose only line is no JSON is read whatever is asked for. -/
theorem reads_iff_harmless_greeting :
    (filesWith greeting).Holds damaged.path (encode (greeting ++ ['\n'])) ∧ 0 ≤ damaged.tail ∧
      (∀ (f : Filter) (limit : Int), ∃ vs, select damaged (filesWith greeting) f limit = .ok vs ∧
        ∀ v ∈ vs, ∃ es, v = .mapping es) ∧
      ∃ counts, tally damaged (filesWith greeting) = .ok counts := by
  have holds := holds_filesWith greeting
  have some_tail : 0 ≤ damaged.tail := by decide
  refine ⟨holds, some_tail, (reads_iff_harmless holds some_tail).mpr ?_⟩
  intro line there
  rw [linesFrom_filesWith (by decide) (by decide), List.mem_singleton] at there
  rw [there]
  exact .inr (.inl (by with_unfolding_all rfl))

/-- A log whose only line is a number: the number is selected as if it were an event, and asking for
a level or counting fails. -/
theorem number_breaks_readers :
    select damaged (filesWith ['5']) {} 200 = .ok [.int 5] ∧
      select damaged (filesWith ['5']) { level := "info" } 200 = .error .notMapping ∧
      tally damaged (filesWith ['5']) = .error .notMapping := by
  have five : Json.read ['5'] = .ok (.int 5) := by with_unfolding_all rfl
  have values : damaged.values (filesWith ['5']) = .ok [.int 5] := by
    rw [values_of_holds (holds_filesWith ['5']) (by decide),
      linesFrom_filesWith (by decide) (by decide)]
    unfold Log.readLines
    rw [if_neg (by decide), five]
    rfl
  unfold select tally
  rw [values]
  exact ⟨by rfl, by rfl, by rfl⟩

end SheetCalc.Journal
