import SheetCalc.Sheet.File

/-!
# Messages

Whatever is wrong with a sheet, its message is not empty (`LoadError.message_isEmpty`), so that it
is not taken for the lack of an error.
-/

namespace SheetCalc

theorem Text.isEmpty_ofString {s : String} (some_character : s ≠ "") :
    (ofString s).isEmpty = false := by
  unfold ofString ofChars isEmpty
  simpa using some_character

theorem append_ne_empty {s : String} (some_character : s ≠ "") (t : String) : s ++ t ≠ "" :=
  fun empty => some_character (String.append_eq_empty_iff.mp empty).1

theorem ConversionError.message_ne_empty (e : ConversionError) : e.message ≠ "" := by
  have too_long (t : String) : tooLongText ++ t ≠ "" := by
    unfold tooLongText
    exact append_ne_empty (append_ne_empty (append_ne_empty (by decide) _) _) t
  cases e with
  | wrongKind kind => exact append_ne_empty (append_ne_empty (by decide) _) _
  | notAFloat t => exact append_ne_empty (by decide) _
  | notAnInteger t => exact append_ne_empty (by decide) _
  | tooLong count => exact append_ne_empty (append_ne_empty (append_ne_empty (too_long _) _) _) _
  | tooLongToWrite => exact too_long _
  | notANumber | infinite | tooLarge => exact (by decide)

theorem SizeError.message_ne_empty (e : SizeError) : e.message ≠ "" := by
  unfold message
  split
  · exact append_ne_empty (append_ne_empty (append_ne_empty (by decide) _) _) _
  · exact ConversionError.message_ne_empty _

theorem LabelError.message_ne_empty (e : LabelError) : e.message ≠ "" := by
  rw [message.eq_def]
  cases e with
  | unreadable e =>
      cases e with
      | malformed label => exact append_ne_empty (by decide) _
      | rowTooLong count => exact ConversionError.message_ne_empty _
  | outside label rows cols =>
      simp only
      split
      · iterate 6 apply append_ne_empty
        decide
      · exact ConversionError.message_ne_empty _

theorem SpecError.message_ne_empty (e : SpecError) : e.message ≠ "" := by
  rw [message.eq_def]
  cases e with
  | badCount e => exact e.message_ne_empty
  | badSize e => exact e.message_ne_empty
  | badLabel e => exact e.message_ne_empty
  | notWritable | valueTooLarge => exact ConversionError.message_ne_empty _
  | cellsNotMapping => exact (by decide)
  | cellNotMapping label kind =>
      exact append_ne_empty (append_ne_empty (append_ne_empty (by decide) _) _) _
  | formulaNotList label | valueNotNumber label =>
      exact append_ne_empty (append_ne_empty (by decide) _) _

theorem Yaml.Error.message_ne_empty (e : Yaml.Error) : e.message ≠ "" := by
  rw [message.eq_def]
  cases e with
  | noDigits base => exact append_ne_empty (append_ne_empty (append_ne_empty (by decide) _) _) _
  | tooLong count => exact ConversionError.message_ne_empty _
  | malformed | noCodePoint | codeTooLarge | tooDeep => exact (by decide)

/-- **What is wrong with a sheet is never said by an empty message.** -/
theorem LoadError.message_isEmpty (e : LoadError) : e.message.isEmpty = false := by
  rw [message.eq_def]
  cases e with
  | badSpec e => exact Text.isEmpty_ofString e.message_ne_empty
  | badScalar e => exact Text.isEmpty_ofString e.message_ne_empty
  | notFound | unreadable | badDocument | notMapping => rfl

end SheetCalc
