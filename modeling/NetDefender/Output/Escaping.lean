import Mathlib.Data.List.Flatten
import NetDefender.Output.Builder

/-!
# Escaped strings

`json_escape_string` stops between two characters, wherever its buffer ends.  So what it has
written can be read back, and it is what the beginning of the input says.
-/

namespace NetDefender.Output

open CString Json

/-! ## Reading an escaped text -/

/-- Text in which quotes and backslashes stand in escape pairs only, and every pair is
complete. -/
inductive IsEscaped : Bytes → Prop where
  | nil : IsEscaped []
  | plain {byte : UInt8} {rest : Bytes} (low : 32 ≤ byte) (noQuote : byte ≠ quote)
      (noEscape : byte ≠ backslash) : IsEscaped rest → IsEscaped (byte :: rest)
  | pair {letter : UInt8} {rest : Bytes}
      (escapable : letter ∈ ([quote, backslash, 110, 114, 116] : Bytes)) :
      IsEscaped rest → IsEscaped (backslash :: letter :: rest)

/-- The byte that an escape pair with this letter stands for. -/
def unescapeLetter (letter : UInt8) : UInt8 :=
  if letter = 110 then 10
  else if letter = 114 then 13
  else if letter = 116 then 9
  else letter

/-- The text that an escaped text stands for. -/
def unescape : Bytes → Bytes
  | [] => []
  | [byte] => [byte]
  | byte :: letter :: rest =>
      if byte = backslash then unescapeLetter letter :: unescape rest
      else byte :: unescape (letter :: rest)

/-- Control characters other than LF, CR and TAB are shown as question marks. -/
def shownByte (c : UInt8) : UInt8 :=
  if c < 32 ∧ c ∉ ([10, 13, 9] : Bytes) then 63 else c

/-- The escaped form of a text. -/
def escapeText (input : Bytes) : Bytes := input.flatMap escapeByte

variable {input output rest : Bytes} {outputSize : Nat}

theorem unescape_plain {byte : UInt8} (noEscape : byte ≠ backslash) (rest : Bytes) :
    unescape (byte :: rest) = byte :: unescape rest := by
  cases rest with
  | nil => rfl
  | cons letter rest => simp [unescape, noEscape]

theorem unescape_pair (letter : UInt8) (rest : Bytes) :
    unescape (backslash :: letter :: rest) = unescapeLetter letter :: unescape rest := by
  simp [unescape]

/-- No byte of an escaped text is a control character. -/
theorem IsEscaped.low (escaped : IsEscaped output) : ∀ byte ∈ output, 32 ≤ byte := by
  induction escaped with
  | nil => simp
  | plain low _ _ _ ih => simpa using ⟨low, ih⟩
  | @pair letter rest escapable _ ih =>
      have letters : ∀ letter ∈ ([quote, backslash, 110, 114, 116] : Bytes), 32 ≤ letter := by
        decide +kernel
      simpa using ⟨by decide, letters letter escapable, ih⟩

/-! ## One character -/

/-- The bytes that are written for one byte are a plain byte or an escape pair. -/
theorem escapeByte_cases (c : UInt8) :
    (∃ letter ∈ ([quote, backslash, 110, 114, 116] : Bytes),
      escapeByte c = [backslash, letter] ∧ unescapeLetter letter = shownByte c) ∨
    (32 ≤ shownByte c ∧ shownByte c ≠ quote ∧ shownByte c ≠ backslash ∧
      escapeByte c = [shownByte c]) := by
  by_cases special : c = quote ∨ c = backslash
  · left
    refine ⟨c, ?_, by simp [escapeByte, special], ?_⟩
    · rcases special with rfl | rfl <;> decide
    · rcases special with rfl | rfl <;> decide
  · by_cases blank : c ∈ ([10, 13, 9] : Bytes)
    · left
      simp only [List.mem_cons, List.not_mem_nil, or_false] at blank
      rcases blank with rfl | rfl | rfl
      · exact ⟨110, by decide⟩
      · exact ⟨114, by decide⟩
      · exact ⟨116, by decide⟩
    · right
      have written : escapeByte c = [shownByte c] := by
        simp only [List.mem_cons, List.not_mem_nil, or_false, not_or] at blank
        simp only [escapeByte, shownByte, if_neg special, if_neg blank.1, if_neg blank.2.1,
          if_neg blank.2.2]
        by_cases low : c < 32 <;> simp [low, blank]
      by_cases low : c < 32
      · have shown : shownByte c = 63 := if_pos ⟨low, blank⟩
        rw [written, shown]
        decide
      · have shown : shownByte c = c := if_neg fun both => low both.1
        rw [not_or] at special
        rw [written, shown]
        exact ⟨UInt8.not_lt.mp low, special.1, special.2, rfl⟩

theorem length_escapeByte_pos (c : UInt8) : 0 < (escapeByte c).length := by
  rcases escapeByte_cases c with ⟨letter, -, written, -⟩ | ⟨-, -, -, written⟩
  · simp [written]
  · simp [written]

theorem unescape_escapeByte (c : UInt8) (rest : Bytes) :
    unescape (escapeByte c ++ rest) = shownByte c :: unescape rest := by
  rcases escapeByte_cases c with ⟨letter, -, written, stands⟩ | ⟨-, -, noEscape, written⟩
  · rw [written, ← stands]
    exact unescape_pair letter rest
  · rw [written]
    exact unescape_plain noEscape rest

theorem IsEscaped.escapeByte (c : UInt8) (escaped : IsEscaped rest) :
    IsEscaped (escapeByte c ++ rest) := by
  rcases escapeByte_cases c with ⟨letter, escapable, written, -⟩ | ⟨low, noQuote, noEscape, written⟩
  · rw [written]
    exact .pair escapable escaped
  · rw [written]
    exact .plain low noQuote noEscape escaped

/-! ## Whole texts -/

/-- Unescaping undoes escaping, but for the control characters that are not kept. -/
theorem unescape_escapeText (input : Bytes) :
    unescape (escapeText input) = input.map shownByte := by
  induction input with
  | nil => rfl
  | cons c input ih =>
      change unescape (escapeByte c ++ escapeText input) = _
      rw [unescape_escapeByte, ih, List.map_cons]

theorem isEscaped_escapeText (input : Bytes) : IsEscaped (escapeText input) := by
  induction input with
  | nil => exact .nil
  | cons c input ih => exact ih.escapeByte c

/-- A text has a longer escaped form than its beginning. -/
theorem length_escapeText_take {count : Nat} (short : count < input.length) :
    (escapeText (input.take count)).length < (escapeText input).length := by
  have one := length_escapeByte_pos input[count]
  calc
    (escapeText (input.take count)).length
      < (escapeText (input.take count)).length + (escapeByte input[count]).length :=
        Nat.lt_add_of_pos_right one
    _ = (escapeText (input.take (count + 1))).length := by
        rw [List.take_add_one, List.getElem?_eq_getElem short, Option.toList_some, escapeText,
          escapeText, List.flatMap_append, List.length_append, List.flatMap_singleton]
    _ ≤ (escapeText input).length := by
        apply List.Sublist.length_le
        exact (List.take_sublist _ input).flatMap _

/-- The loop has escaped whole bytes of the input: all of it, or as many as fit into the
buffer. -/
theorem escapeFrom_take (outputSize : Nat) (input output : Bytes) :
    ∃ count, escapeFrom outputSize input output = output ++ escapeText (input.take count) ∧
      (count < input.length → outputSize - 2 ≤ (escapeFrom outputSize input output).length) := by
  induction input generalizing output with
  | nil => exact ⟨0, by simp [escapeFrom, escapeText], by simp⟩
  | cons c input ih =>
      rw [escapeFrom]
      split
      next room =>
        obtain ⟨count, written, full⟩ := ih (output ++ escapeByte c)
        refine ⟨count + 1, ?_, fun short => full (Nat.lt_of_succ_lt_succ short)⟩
        rw [written, List.append_assoc]
        rfl
      next stopped =>
        exact ⟨0, by simp [escapeText], fun _ => Nat.le_of_not_lt stopped⟩

/-- The last character may take both bytes that are left, and there is still room for the
NUL. -/
theorem length_escapeFrom (outputSize : Nat) (input output : Bytes)
    (room : output.length + 1 ≤ outputSize) :
    (escapeFrom outputSize input output).length + 1 ≤ outputSize := by
  induction input generalizing output with
  | nil => exact room
  | cons c input ih =>
      rw [escapeFrom]
      split
      next inside =>
        apply ih
        have short := length_escapeByte c
        rw [List.length_append]
        omega
      next => exact room

/-- What `json_escape_string` leaves in its buffer is an escaped text that says what the
beginning of the input says, and what all of it says if that fits. -/
theorem json_escape_string_invertible (input : Bytes) (outputSize : Nat)
    (room : 3 ≤ outputSize) :
    (jsonEscapeString input outputSize).length ≤ outputSize - 1 ∧
      (∀ byte ∈ jsonEscapeString input outputSize, 32 ≤ byte) ∧
      IsEscaped (jsonEscapeString input outputSize) ∧
      unescape (jsonEscapeString input outputSize) <+: (text input).map shownByte ∧
      ((escapeText (text input)).length ≤ outputSize - 2 →
        unescape (jsonEscapeString input outputSize) = (text input).map shownByte) := by
  obtain ⟨count, written, full⟩ := escapeFrom_take outputSize (text input) []
  have length := length_escapeFrom outputSize (text input) [] (by simp; omega)
  rw [List.nil_append] at written
  have escaped := isEscaped_escapeText ((text input).take count)
  rw [jsonEscapeString, written] at *
  refine ⟨Nat.le_sub_of_add_le length, escaped.low, escaped, ?_, fun fits => ?_⟩
  · rw [unescape_escapeText, List.map_take]
    exact List.take_prefix ..
  · -- a byte that is left over would be one too many
    have whole : (text input).length ≤ count := by
      by_contra short
      have longer := length_escapeText_take (Nat.lt_of_not_le short)
      exact absurd (full (Nat.lt_of_not_le short)) (Nat.not_le.mpr (longer.trans_le fits))
    rw [List.take_of_length_le whole, unescape_escapeText]

/-- A letter and a quote fill a buffer of four bytes; the control character is cut off. -/
theorem json_escape_string_four_bytes :
    jsonEscapeString [97, quote, 7] 4 = [97, backslash, quote] ∧
      unescape (jsonEscapeString [97, quote, 7] 4) <+: [97, quote, 63] :=
  ⟨by decide, (json_escape_string_invertible [97, quote, 7] 4 (by decide)).2.2.2.1⟩

end NetDefender.Output
