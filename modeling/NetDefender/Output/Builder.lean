import Mathlib.Algebra.GroupWithZero.Nat
import Mathlib.Tactic.IntervalCases
import NetDefender.Lib.Json

/-!
# The JSON builder

`json_builder_*` of `output_json.c`.  The text of a builder is what stands before the NUL at
`offset`.  A parameter says which calls of `rte_realloc` succeed, in the order of the calls.
Keys are literals.
-/

namespace NetDefender.Output

open CString Json

/-! ## Printing -/

/-- `%lu`. -/
def printUnsigned (value : Nat) : Bytes :=
  (Nat.toDigits 10 value).map fun digit => UInt8.ofNat digit.toNat

/-- What `snprintf` leaves in a buffer. -/
def snprintf (size : Nat) (line : Bytes) : Bytes := line.take (size - 1)

theorem snprintf_of_lt {size : Nat} {line : Bytes} (fits : line.length < size) :
    snprintf size line = line := List.take_of_length_le (by omega)

theorem printUnsigned_ne_nil (value : Nat) : printUnsigned value ≠ [] := by
  rw [printUnsigned, ne_eq, List.map_eq_nil_iff]
  exact Nat.toDigits_ne_nil

/-- The code of a digit. -/
theorem toNat_of_mem_toDigits {value : Nat} {digit : Char}
    (member : digit ∈ Nat.toDigits 10 value) : 48 ≤ digit.toNat ∧ digit.toNat ≤ 57 :=
  Char.isDigit_iff_toNat.mp (Nat.isDigit_of_mem_toDigits (by decide) (by decide) member)

theorem isDigits_printUnsigned (value : Nat) : IsDigits (printUnsigned value) := by
  refine ⟨printUnsigned_ne_nil value, fun byte member => ?_⟩
  obtain ⟨digit, inside, rfl⟩ := List.mem_map.mp member
  obtain ⟨low, high⟩ := toNat_of_mem_toDigits inside
  generalize digit.toNat = code at low high
  interval_cases code <;> rfl

/-- A number begins with 0 only if it is 0. -/
theorem head?_toDigits {value : Nat} (pos : 0 < value) :
    (Nat.toDigits 10 value).head? ≠ some '0' := by
  induction value using Nat.strongRecOn with
  | ind value ih =>
      by_cases small : value < 10
      · rw [Nat.toDigits_of_lt_base small]
        interval_cases value <;> decide
      · rw [Nat.toDigits_of_base_le (by decide) (Nat.le_of_not_lt small)]
        have rest := ih (value / 10) (by omega) (by omega)
        cases begins : Nat.toDigits 10 (value / 10) with
        | nil => exact absurd begins Nat.toDigits_ne_nil
        | cons first others =>
            rw [begins] at rest
            exact rest

theorem isNumber_printUnsigned (value : Nat) : IsNumber (printUnsigned value) := by
  have whole : printUnsigned value = ascii "0" ∨
      (IsDigits (printUnsigned value) ∧ (printUnsigned value).head? ≠ some 48) := by
    rcases Nat.eq_zero_or_pos value with rfl | pos
    · left
      decide +kernel
    · right
      refine ⟨isDigits_printUnsigned value, ?_⟩
      have first := head?_toDigits pos
      rw [printUnsigned, List.head?_map]
      intro zero
      obtain ⟨digit, begins, same⟩ := Option.map_eq_some_iff.mp zero
      obtain ⟨low, high⟩ := toNat_of_mem_toDigits (List.mem_of_head? begins)
      apply first
      rw [begins, ← digit.ofNat_toNat]
      generalize digit.toNat = code at low high same
      interval_cases code <;> first | rfl | exact absurd same (by decide)
  have number := IsNumber.mk (Or.inl rfl) whole (Or.inl rfl) (Or.inl rfl)
  simpa only [List.nil_append, List.append_nil] using number

theorem length_printUnsigned {value width : Nat} (pos : 0 < width)
    (small : value < 10 ^ width) : (printUnsigned value).length ≤ width := by
  rw [printUnsigned, List.length_map]
  exact (Nat.length_toDigits_le_iff (by decide) pos).mpr small

/-! ## The builder -/

/-- `JSON_BUFFER_SIZE`. -/
def JSON_BUFFER_SIZE : Nat := 16 * 1024

/-- `json_builder_t`, with the number of calls of `rte_realloc` so far. -/
structure JsonBuilder where
  buf : Bytes := []
  size : Nat := JSON_BUFFER_SIZE
  indentLevel : Int := 0
  reallocs : Nat := 0
  deriving DecidableEq, Repr

/-- The loop of `json_builder_append` that doubles the buffer until the text fits; a buffer is
not empty, so that it does so before the fuel is used up. -/
def JsonBuilder.reserve (realloc : Nat → Bool) (needed : Nat) :
    Nat → JsonBuilder → Bool × JsonBuilder
  | 0, jb => (false, jb)
  | fuel + 1, jb =>
      if needed < jb.size then (true, jb)
      else if realloc jb.reallocs then
        JsonBuilder.reserve realloc needed fuel
          { jb with size := jb.size * 2, reallocs := jb.reallocs + 1 }
      else (false, { jb with reallocs := jb.reallocs + 1 })

/-- `json_builder_append`. -/
def JsonBuilder.append (realloc : Nat → Bool) (str : Bytes) (jb : JsonBuilder) : JsonBuilder :=
  let needed := jb.buf.length + str.length + 1
  let (fits, jb) := jb.reserve realloc needed (needed + 1)
  if fits then { jb with buf := jb.buf ++ str } else jb

/-- `json_needs_comma`, over the bytes from the last one on. -/
def needsComma : Bytes → Bool
  | [] => false
  | c :: before =>
      if c = openBrace ∨ c = openBracket then false
      else if c = comma ∨ c = colon then false
      else if c ≠ 32 ∧ c ≠ 10 ∧ c ≠ 9 then true
      else needsComma before

/-- `json_needs_comma`. -/
def JsonBuilder.needsComma (jb : JsonBuilder) : Bool := Output.needsComma jb.buf.reverse

/-- A comma, where `json_needs_comma` asks for one. -/
def JsonBuilder.separate (realloc : Nat → Bool) (jb : JsonBuilder) : JsonBuilder :=
  if jb.needsComma then jb.append realloc [comma] else jb

/-- `json_builder_start_object`, and `json_builder_start_array` for another bracket. -/
def JsonBuilder.start (realloc : Nat → Bool) (bracket : UInt8) (jb : JsonBuilder) :
    JsonBuilder :=
  let jb := (jb.separate realloc).append realloc [bracket]
  { jb with indentLevel := jb.indentLevel + 1 }

/-- `json_builder_end_object`, and `json_builder_end_array` for another bracket. -/
def JsonBuilder.finish (realloc : Nat → Bool) (bracket : UInt8) (jb : JsonBuilder) :
    JsonBuilder :=
  { jb with indentLevel := jb.indentLevel - 1 }.append realloc [bracket]

/-- What `json_escape_string` writes for one byte. -/
def escapeByte (c : UInt8) : Bytes :=
  if c = quote ∨ c = backslash then [backslash, c]
  else if c = 10 then [backslash, 110]
  else if c = 13 then [backslash, 114]
  else if c = 9 then [backslash, 116]
  else if c < 32 then [63]
  else [c]

/-- The loop of `json_escape_string`, over the input that is left and the output so far. -/
def escapeFrom (outputSize : Nat) : Bytes → Bytes → Bytes
  | [], output => output
  | c :: input, output =>
      if output.length < outputSize - 2 then escapeFrom outputSize input (output ++ escapeByte c)
      else output

/-- `json_escape_string`. -/
def jsonEscapeString (input : Bytes) (outputSize : Nat) : Bytes :=
  escapeFrom outputSize (text input) []

/-- `sizeof(buf)` and `sizeof(escaped)` of `json_builder_add_string`. -/
def JSON_STRING_SIZE : Nat := 4096

/-- A member with a string, before it is cut off. -/
def stringMember (key : String) (value : Option Bytes) : Bytes :=
  quote :: (ascii key ++ quote :: colon :: quote ::
    (jsonEscapeString (value.getD []) JSON_STRING_SIZE ++ [quote]))

/-- A member with a number. -/
def uintMember (key : String) (value : Nat) : Bytes :=
  quote :: (ascii key ++ quote :: colon :: printUnsigned value)

/-- `json_builder_add_string`. -/
def JsonBuilder.addString (realloc : Nat → Bool) (key : String) (value : Option Bytes)
    (jb : JsonBuilder) : JsonBuilder :=
  (jb.separate realloc).append realloc (snprintf JSON_STRING_SIZE (stringMember key value))

/-- `json_builder_add_uint`. -/
def JsonBuilder.addUint (realloc : Nat → Bool) (key : String) (value : BitVec 64)
    (jb : JsonBuilder) : JsonBuilder :=
  (jb.separate realloc).append realloc (snprintf 256 (uintMember key value.toNat))

/-- A call of the builder. -/
inductive Call where
  | startObject
  | endObject
  | startArray
  | endArray
  | addString (key : String) (value : Option Bytes)
  | addUint (key : String) (value : BitVec 64)
  deriving DecidableEq, Repr

def Call.run (realloc : Nat → Bool) (jb : JsonBuilder) : Call → JsonBuilder
  | .startObject => jb.start realloc openBrace
  | .endObject => jb.finish realloc closeBrace
  | .startArray => jb.start realloc openBracket
  | .endArray => jb.finish realloc closeBracket
  | .addString key value => jb.addString realloc key value
  | .addUint key value => jb.addUint realloc key value

/-- The builder after some calls. -/
def JsonBuilder.run (realloc : Nat → Bool) (jb : JsonBuilder) (calls : List Call) :
    JsonBuilder :=
  calls.foldl (Call.run realloc) jb

/-! ## Calls only append -/

section Append

variable {realloc : Nat → Bool} {jb : JsonBuilder}

theorem JsonBuilder.reserve_buf (realloc : Nat → Bool) (needed fuel : Nat) (jb : JsonBuilder) :
    (jb.reserve realloc needed fuel).2.buf = jb.buf := by
  induction fuel generalizing jb with
  | zero => rfl
  | succ fuel ih =>
      rw [JsonBuilder.reserve]
      split
      next => rfl
      next =>
        split
        next => exact ih _
        next => rfl

theorem JsonBuilder.append_extends (str : Bytes) : jb.buf <+: (jb.append realloc str).buf := by
  rw [JsonBuilder.append]
  dsimp only
  split
  next =>
    simp only [JsonBuilder.reserve_buf]
    exact List.prefix_append _ _
  next =>
    simp only [JsonBuilder.reserve_buf, List.prefix_rfl]

theorem JsonBuilder.finish_extends (bracket : UInt8) :
    jb.buf <+: (jb.finish realloc bracket).buf :=
  @JsonBuilder.append_extends realloc { jb with indentLevel := jb.indentLevel - 1 } [bracket]

theorem JsonBuilder.separate_extends : jb.buf <+: (jb.separate realloc).buf := by
  rw [JsonBuilder.separate]
  split
  next => exact jb.append_extends _
  next => exact List.prefix_rfl

theorem Call.run_extends (call : Call) : jb.buf <+: (call.run realloc jb).buf := by
  cases call with
  | startObject => exact jb.separate_extends.trans (JsonBuilder.append_extends _)
  | endObject => exact jb.finish_extends closeBrace
  | startArray => exact jb.separate_extends.trans (JsonBuilder.append_extends _)
  | endArray => exact jb.finish_extends closeBracket
  | addString key value => exact jb.separate_extends.trans (JsonBuilder.append_extends _)
  | addUint key value => exact jb.separate_extends.trans (JsonBuilder.append_extends _)

theorem JsonBuilder.run_extends (calls : List Call) : jb.buf <+: (jb.run realloc calls).buf := by
  induction calls generalizing jb with
  | nil => exact List.prefix_rfl
  | cons call calls ih => exact (call.run_extends).trans ih

/-- A text that fits is appended without asking for more memory. -/
theorem JsonBuilder.append_of_fits {str : Bytes}
    (fits : jb.buf.length + str.length + 1 < jb.size) :
    jb.append realloc str = { jb with buf := jb.buf ++ str } := by
  rw [JsonBuilder.append, JsonBuilder.reserve, if_pos fits]
  rfl

end Append

/-! ## Strings -/

/-- Characters that need no escape. -/
theorem isChars_of_plain {chars : Bytes}
    (plain : ∀ byte ∈ chars, 32 ≤ byte ∧ byte ≠ quote ∧ byte ≠ backslash) : IsChars chars := by
  induction chars with
  | nil => exact .nil
  | cons byte chars ih =>
      obtain ⟨low, noQuote, noEscape⟩ := plain byte List.mem_cons_self
      apply IsChars.plain low noQuote noEscape
      exact ih fun byte member => plain byte (List.mem_cons_of_mem _ member)

theorem isChars_append {chars more : Bytes} (first : IsChars chars) (second : IsChars more) :
    IsChars (chars ++ more) := by
  induction first with
  | nil => exact second
  | plain low noQuote noEscape _ ih => exact .plain low noQuote noEscape ih
  | escape escapable _ ih => exact .escape escapable ih
  | unicode four hex _ ih =>
      rw [List.cons_append, List.cons_append, List.append_assoc]
      exact .unicode four hex ih

/-- The bytes that are written for one byte are one character of a string. -/
theorem isChars_escapeByte (c : UInt8) : IsChars (escapeByte c) := by
  have pair {letter : UInt8} (escapable : letter ∈ ascii "\"\\/bfnrt") :
      IsChars [backslash, letter] := .escape escapable .nil
  rw [escapeByte]
  split
  next special =>
    apply pair
    rcases special with rfl | rfl <;> decide +kernel
  next special =>
    split
    next => exact pair (by decide +kernel)
    next =>
      split
      next => exact pair (by decide +kernel)
      next =>
        split
        next => exact pair (by decide +kernel)
        next =>
          split
          next => exact .plain (by decide) (by decide) (by decide) .nil
          next high =>
            rw [not_or] at special
            exact .plain (UInt8.not_lt.mp high) special.1 special.2 .nil

theorem length_escapeByte (c : UInt8) : (escapeByte c).length ≤ 2 := by
  rw [escapeByte]
  repeat' split
  all_goals simp

theorem isChars_escapeFrom {outputSize : Nat} {input output : Bytes} (before : IsChars output) :
    IsChars (escapeFrom outputSize input output) := by
  induction input generalizing output with
  | nil => exact before
  | cons c input ih =>
      rw [escapeFrom]
      split
      next => exact ih (isChars_append before (isChars_escapeByte c))
      next => exact before

/-- What is escaped are the characters of a string. -/
theorem isChars_jsonEscapeString (input : Bytes) (outputSize : Nat) :
    IsChars (jsonEscapeString input outputSize) := isChars_escapeFrom .nil

/-- The loop stops before the buffer is full, with all of the input or with an output that
leaves no room for another character. -/
theorem length_escapeFrom_bounds (outputSize : Nat) (input output : Bytes) :
    let whole := output.length + (input.map fun c => (escapeByte c).length).sum
    (escapeFrom outputSize input output).length ≤ whole ∧
      min (outputSize - 2) whole ≤ (escapeFrom outputSize input output).length := by
  induction input generalizing output with
  | nil => exact ⟨le_rfl, Nat.min_le_right _ _⟩
  | cons c input ih =>
      have whole : output.length + ((c :: input).map fun c => (escapeByte c).length).sum =
          (output ++ escapeByte c).length + (input.map fun c => (escapeByte c).length).sum := by
        rw [List.map_cons, List.sum_cons, List.length_append, Nat.add_assoc]
      dsimp only at ih ⊢
      rw [escapeFrom, whole]
      split
      next => exact ih (output ++ escapeByte c)
      next stopped =>
        rw [List.length_append]
        exact ⟨by omega, by omega⟩

/-- Escaping at most doubles a string. -/
theorem length_jsonEscapeString (input : Bytes) (outputSize : Nat) :
    (jsonEscapeString input outputSize).length ≤ 2 * input.length := by
  have whole := (length_escapeFrom_bounds outputSize (text input) []).1
  have shorter : (text input).length ≤ input.length := (List.takeWhile_sublist _).length_le
  have doubled (rest : Bytes) :
      (rest.map fun c => (escapeByte c).length).sum ≤ 2 * rest.length := by
    induction rest with
    | nil => exact Nat.zero_le _
    | cons c rest ih =>
        have unit := length_escapeByte c
        rw [List.map_cons, List.sum_cons, List.length_cons]
        omega
  rw [List.length_nil, Nat.zero_add] at whole
  exact whole.trans ((doubled (text input)).trans (Nat.mul_le_mul_left 2 shorter))

/-! ## Members -/

/-- A key of plain characters. -/
def PlainKey (key : String) : Prop :=
  ∀ byte ∈ ascii key, 32 ≤ byte ∧ byte ≠ quote ∧ byte ≠ backslash

instance (key : String) : Decidable (PlainKey key) :=
  inferInstanceAs (Decidable (∀ byte ∈ ascii key, _ ∧ _ ∧ _))

theorem isField_stringMember {key : String} (plain : PlainKey key) (value : Option Bytes) :
    IsField (stringMember key value) := by
  refine ⟨quote :: (ascii key ++ [quote]), _, ⟨_, isChars_of_plain plain, rfl⟩,
    Or.inl ⟨_, isChars_jsonEscapeString (value.getD []) JSON_STRING_SIZE, rfl⟩, ?_⟩
  simp [stringMember]

theorem isField_uintMember {key : String} (plain : PlainKey key) (value : Nat) :
    IsField (uintMember key value) := by
  refine ⟨quote :: (ascii key ++ [quote]), _, ⟨_, isChars_of_plain plain, rfl⟩,
    Or.inr (isNumber_printUnsigned value), ?_⟩
  simp [uintMember]

/-! ## An object that is not closed -/

/-- The byte that a field ends with asks for a comma. -/
theorem needsComma_of_last {byte : UInt8} (ends : byte = quote ∨ isNumeric byte = true)
    (before : Bytes) : needsComma (byte :: before) = true := by
  have other {special : UInt8} (noQuote : special ≠ quote) (noNumber : isNumeric special = false) :
      byte ≠ special := by
    rintro rfl
    exact ends.elim noQuote (noNumber ▸ Bool.false_ne_true)
  rw [needsComma, if_neg, if_neg, if_pos]
  · exact ⟨other (by decide) rfl, other (by decide) rfl, other (by decide) rfl⟩
  · exact not_or.mpr ⟨other (by decide) rfl, other (by decide) rfl⟩
  · exact not_or.mpr ⟨other (by decide) rfl, other (by decide) rfl⟩

/-- The last byte of a field. -/
theorem isField_last {field : Bytes} (isField : IsField field) :
    ∃ others byte, field = others ++ [byte] ∧ (byte = quote ∨ isNumeric byte = true) := by
  obtain ⟨key, value, -, string | number, rfl⟩ := isField
  · obtain ⟨chars, -, rfl⟩ := string
    exact ⟨key ++ colon :: quote :: chars, quote, by simp, Or.inl rfl⟩
  · rcases List.eq_nil_or_concat value with rfl | ⟨others, byte, rfl⟩
    · exact absurd rfl number.ne_nil
    · refine ⟨key ++ colon :: others, byte, by simp, Or.inr (number.numeric byte ?_)⟩
      simp

/-- The builder holds an object with some short fields, with commas between them. -/
structure JsonBuilder.Holds (jb : JsonBuilder) (fields : List Bytes) : Prop where
  size : jb.size = JSON_BUFFER_SIZE
  buf : jb.buf = openBrace :: (listed fields).dropLast
  areFields : ∀ field ∈ fields, IsField field
  short : ∀ field ∈ fields, field.length ≤ 300

theorem listed_concat (fields : List Bytes) (last : Bytes) :
    listed (fields ++ [last]) = listed fields ++ last ++ [comma] := by
  rw [listed_append, List.append_assoc]
  exact congrArg _ (List.append_nil _)

theorem length_listed {fields : List Bytes} (short : ∀ field ∈ fields, field.length ≤ 300) :
    (listed fields).length ≤ 301 * fields.length := by
  induction fields with
  | nil => exact Nat.zero_le _
  | cons field fields ih =>
      have rest := ih fun field member => short field (List.mem_cons_of_mem _ member)
      have first := short field List.mem_cons_self
      rw [listed_cons, List.length_append, List.length_cons, List.length_cons]
      omega

section Holds

variable {realloc : Nat → Bool} {jb : JsonBuilder} {fields : List Bytes}

/-- A comma is put after the fields, if there are some. -/
theorem JsonBuilder.Holds.separate (holds : jb.Holds fields) (few : fields.length ≤ 20) :
    jb.separate realloc = { jb with buf := openBrace :: listed fields } := by
  rcases List.eq_nil_or_concat fields with rfl | ⟨others, last, rfl⟩
  · have none : jb.needsComma = false := by
      rw [JsonBuilder.needsComma, holds.buf]
      rfl
    rw [JsonBuilder.separate, none, if_neg Bool.false_ne_true]
    exact congrArg (fun buf => { jb with buf := buf }) holds.buf
  · rw [List.concat_eq_append] at *
    have small := length_listed holds.short
    have buf := holds.buf
    rw [listed_concat] at small ⊢
    rw [listed_concat, List.dropLast_concat] at buf
    obtain ⟨front, byte, rfl, ends⟩ := isField_last (holds.areFields last (by simp))
    have comma' : jb.needsComma = true := by
      rw [JsonBuilder.needsComma, buf]
      simpa using needsComma_of_last ends _
    rw [JsonBuilder.separate, comma', if_pos rfl, JsonBuilder.append_of_fits]
    · rw [buf]
      rfl
    · rw [buf, holds.size, List.length_cons, JSON_BUFFER_SIZE]
      rw [List.length_append] at small
      simp only [List.length_singleton] at small ⊢
      omega

/-- A field that is added. -/
theorem JsonBuilder.Holds.add (holds : jb.Holds fields) {field : Bytes} (isField : IsField field)
    (short : field.length ≤ 300) (few : fields.length < 20) :
    ((jb.separate realloc).append realloc field).Holds (fields ++ [field]) := by
  have small := length_listed holds.short
  have fits : (openBrace :: listed fields).length + field.length + 1 < jb.size := by
    rw [List.length_cons, holds.size, JSON_BUFFER_SIZE]
    omega
  rw [holds.separate few.le, JsonBuilder.append_of_fits fits]
  constructor
  case size => exact holds.size
  case buf =>
    rw [listed_concat, List.dropLast_concat]
    rfl
  case areFields =>
    exact List.forall_mem_append.mpr
      ⟨holds.areFields, List.forall_mem_singleton.mpr isField⟩
  case short =>
    exact List.forall_mem_append.mpr ⟨holds.short, List.forall_mem_singleton.mpr short⟩

/-- A string that is added. -/
theorem JsonBuilder.Holds.addString (holds : jb.Holds fields) {key : String}
    (plain : PlainKey key) (shortKey : (ascii key).length ≤ 20) {value : Option Bytes}
    (short : (value.getD []).length ≤ 130) (few : fields.length < 20) :
    ((Call.addString key value).run realloc jb).Holds
      (fields ++ [stringMember key value]) := by
  have doubled := length_jsonEscapeString (value.getD []) JSON_STRING_SIZE
  have length : (stringMember key value).length ≤ 300 := by
    simp only [stringMember, List.length_cons, List.length_append, List.length_nil]
    omega
  have whole : snprintf JSON_STRING_SIZE (stringMember key value) = stringMember key value := by
    apply snprintf_of_lt
    rw [JSON_STRING_SIZE]
    omega
  rw [Call.run, JsonBuilder.addString, whole]
  exact holds.add (isField_stringMember plain value) length few

/-- A number that is added. -/
theorem JsonBuilder.Holds.addUint (holds : jb.Holds fields) {key : String}
    (plain : PlainKey key) (shortKey : (ascii key).length ≤ 20) (value : BitVec 64)
    (few : fields.length < 20) :
    ((Call.addUint key value).run realloc jb).Holds
      (fields ++ [uintMember key value.toNat]) := by
  have digits : (printUnsigned value.toNat).length ≤ 20 :=
    length_printUnsigned (by decide) (value.isLt.trans (by decide))
  have length : (uintMember key value.toNat).length ≤ 50 := by
    simp only [uintMember, List.length_cons, List.length_append]
    omega
  rw [Call.run, JsonBuilder.addUint, snprintf_of_lt (Nat.lt_of_le_of_lt length (by decide))]
  exact holds.add (isField_uintMember plain value.toNat) (length.trans (by decide)) few

/-- A new builder with a brace. -/
theorem JsonBuilder.holds_new : (Call.startObject.run realloc {}).Holds [] := by
  constructor
  case size => rfl
  case buf => rfl
  case areFields => exact fun _ member => absurd member List.not_mem_nil
  case short => exact fun _ member => absurd member List.not_mem_nil

/-- Another brace after some fields. -/
theorem JsonBuilder.Holds.brace (holds : jb.Holds fields) (few : fields.length ≤ 20) :
    (Call.startObject.run realloc jb).buf = openBrace :: (listed fields ++ [openBrace]) := by
  have small := length_listed holds.short
  have fits : (openBrace :: listed fields).length + [openBrace].length + 1 < jb.size := by
    rw [List.length_cons, List.length_singleton, holds.size, JSON_BUFFER_SIZE]
    omega
  rw [Call.run, JsonBuilder.start, holds.separate few, JsonBuilder.append_of_fits fits]
  rfl

/-- The brace that closes an object with fields. -/
theorem JsonBuilder.Holds.finish {last : Bytes} (holds : jb.Holds (fields ++ [last]))
    (few : fields.length < 20) : IsObject (Call.endObject.run realloc jb).buf := by
  have small := length_listed holds.short
  have buf := holds.buf
  rw [listed_concat] at small
  rw [listed_concat, List.dropLast_concat] at buf
  simp only [List.length_append, List.length_singleton] at small
  have fits : jb.buf.length + [closeBrace].length + 1 < jb.size := by
    rw [buf, List.length_cons, List.length_append, List.length_singleton, holds.size,
      JSON_BUFFER_SIZE]
    omega
  have closed := @JsonBuilder.append_of_fits realloc
    { jb with indentLevel := jb.indentLevel - 1 } [closeBrace] fits
  rw [Call.run, JsonBuilder.finish, closed]
  dsimp only
  rw [buf]
  obtain ⟨areFields, isField⟩ := List.forall_mem_append.mp holds.areFields
  exact .members (isMembers_of_fields areFields (isField last (List.mem_singleton_self last)))

end Holds

end NetDefender.Output
