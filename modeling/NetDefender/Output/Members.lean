import NetDefender.Output.Builder

/-!
# Members with strings

What `json_builder_add_string` appends is a member cut off at the size of its buffer.  A
member that is cut off is none: escaping stops at a whole character, but the buffer for the
member has no more room than the one for the escaped text, and the quote at its end is lost
first.
-/

namespace NetDefender.Output

open CString Json

/-- A key of letters, digits and underscores. -/
def WordKey (key : String) : Prop :=
  ∀ byte ∈ ascii key, 48 ≤ byte ∧ byte ≤ 57 ∨ 65 ≤ byte ∧ byte ≤ 90 ∨
    97 ≤ byte ∧ byte ≤ 122 ∨ byte = 95

instance (key : String) : Decidable (WordKey key) :=
  inferInstanceAs (Decidable (∀ byte ∈ ascii key, _ ∨ _))

/-- The quoted key, a colon and a string that is closed. -/
def IsStringMember (key text : Bytes) : Prop :=
  ∃ string, IsString string ∧ text = quote :: (key ++ quote :: colon :: string)

/-- The text that `json_builder_add_string` appends after the comma. -/
def JsonBuilder.addedText (realloc : Nat → Bool) (key : String) (value : Option Bytes)
    (jb : JsonBuilder) : Bytes :=
  (jb.addString realloc key value).buf.drop (jb.separate realloc).buf.length

/-! ## Room in the builder -/

/-- The buffer has room for a text of this length, or `rte_realloc` doubles it until it has. -/
def JsonBuilder.HasRoom (realloc : Nat → Bool) (length : Nat) (jb : JsonBuilder) : Prop :=
  ∃ doublings, jb.buf.length + length + 1 < jb.size * 2 ^ doublings ∧
    ∀ call < doublings, realloc (jb.reallocs + call) = true

section Room

variable {realloc : Nat → Bool} {jb : JsonBuilder}

/-- The loop ends with the first doubling that is enough. -/
theorem JsonBuilder.reserve_iff (needed fuel : Nat) (jb : JsonBuilder) :
    (jb.reserve realloc needed fuel).1 = true ↔ ∃ doublings < fuel,
      needed < jb.size * 2 ^ doublings ∧
        ∀ call < doublings, realloc (jb.reallocs + call) = true := by
  induction fuel generalizing jb with
  | zero => simp [JsonBuilder.reserve]
  | succ fuel ih =>
      rw [JsonBuilder.reserve]
      split
      next fits =>
        refine iff_of_true rfl ⟨0, Nat.succ_pos fuel, ?_, fun call none => ?_⟩
        · rw [Nat.pow_zero, Nat.mul_one]
          exact fits
        · exact absurd none (Nat.not_lt_zero call)
      next full =>
        -- no doubling is not enough
        have more {doublings : Nat} (enough : needed < jb.size * 2 ^ doublings) :
            ∃ others, doublings = others + 1 := by
          apply Nat.exists_eq_succ_of_ne_zero
          rintro rfl
          rw [Nat.pow_zero, Nat.mul_one] at enough
          exact full enough
        split
        next granted =>
          rw [ih]
          constructor
          · rintro ⟨doublings, few, enough, all⟩
            refine ⟨doublings + 1, Nat.succ_lt_succ few, ?_, fun call before => ?_⟩
            · rw [Nat.pow_succ, Nat.mul_comm (2 ^ doublings), ← Nat.mul_assoc]
              exact enough
            · cases call with
              | zero => exact granted
              | succ call =>
                  have next := all call (Nat.lt_of_succ_lt_succ before)
                  rw [Nat.add_right_comm] at next
                  exact next
          · rintro ⟨doublings, few, enough, all⟩
            obtain ⟨others, rfl⟩ := more enough
            refine ⟨others, Nat.lt_of_succ_lt_succ few, ?_, fun call before => ?_⟩
            · rw [Nat.pow_succ, Nat.mul_comm (2 ^ others), ← Nat.mul_assoc] at enough
              exact enough
            · rw [Nat.add_right_comm]
              exact all (call + 1) (Nat.succ_lt_succ before)
        next refused =>
          refine iff_of_false Bool.false_ne_true ?_
          rintro ⟨doublings, -, enough, all⟩
          obtain ⟨others, rfl⟩ := more enough
          exact refused (all 0 (Nat.succ_pos others))

/-- The fuel of `json_builder_append` is enough. -/
theorem JsonBuilder.reserve_iff_hasRoom (length : Nat) :
    (jb.reserve realloc (jb.buf.length + length + 1) (jb.buf.length + length + 1 + 1)).1 =
        true ↔ jb.HasRoom realloc length := by
  rw [JsonBuilder.reserve_iff, JsonBuilder.HasRoom]
  generalize jb.buf.length + length + 1 = needed
  constructor
  · rintro ⟨doublings, -, enough, all⟩
    exact ⟨doublings, enough, all⟩
  · rintro ⟨doublings, enough, all⟩
    by_cases few : doublings < needed + 1
    · exact ⟨doublings, few, enough, all⟩
    · have size : 0 < jb.size := by
        apply Nat.pos_of_ne_zero
        intro none
        rw [none, Nat.zero_mul] at enough
        exact absurd enough (Nat.not_lt_zero needed)
      refine ⟨needed, Nat.lt_succ_self needed, ?_, fun call before => all call (by omega)⟩
      calc
        needed < 2 ^ needed := Nat.lt_two_pow_self
        _ ≤ jb.size * 2 ^ needed := Nat.le_mul_of_pos_left _ size

/-- A text is appended as a whole, if there is room for it. -/
theorem JsonBuilder.append_of_hasRoom {str : Bytes} (room : jb.HasRoom realloc str.length) :
    (jb.append realloc str).buf = jb.buf ++ str := by
  rw [← JsonBuilder.reserve_iff_hasRoom] at room
  rw [JsonBuilder.append]
  dsimp only
  rw [if_pos room, JsonBuilder.reserve_buf]

theorem JsonBuilder.append_of_not_hasRoom {str : Bytes}
    (full : ¬jb.HasRoom realloc str.length) : (jb.append realloc str).buf = jb.buf := by
  rw [← JsonBuilder.reserve_iff_hasRoom] at full
  rw [JsonBuilder.append]
  dsimp only
  rw [if_neg full, JsonBuilder.reserve_buf]

end Room

/-! ## The length of an escaped text -/

/-- The length of a value in a string: some bytes are escaped. -/
def escapedLength (value : Option Bytes) : Nat :=
  ((text (value.getD [])).map fun c =>
    if c ∈ ([quote, backslash, 10, 13, 9] : Bytes) then 2 else 1).sum

theorem length_escapeByte_eq (c : UInt8) :
    (escapeByte c).length = if c ∈ ([quote, backslash, 10, 13, 9] : Bytes) then 2 else 1 := by
  simp only [List.mem_cons, List.not_mem_nil, or_false]
  rw [escapeByte]
  split
  next special => rw [if_pos (by rcases special with rfl | rfl <;> decide)]; rfl
  next special =>
    rw [not_or] at special
    split
    next feed => rw [if_pos (by rw [feed]; decide)]; rfl
    next noFeed =>
      split
      next back => rw [if_pos (by rw [back]; decide)]; rfl
      next noBack =>
        split
        next tab => rw [if_pos (by rw [tab]; decide)]; rfl
        next noTab =>
          have none : ¬(c = quote ∨ c = backslash ∨ c = 10 ∨ c = 13 ∨ c = 9) := by
            simp only [not_or]
            exact ⟨special.1, special.2, noFeed, noBack, noTab⟩
          rw [if_neg none]
          split <;> rfl

theorem length_jsonEscapeString_bounds (value : Option Bytes) :
    (jsonEscapeString (value.getD []) JSON_STRING_SIZE).length ≤ escapedLength value ∧
      min 4094 (escapedLength value) ≤
        (jsonEscapeString (value.getD []) JSON_STRING_SIZE).length := by
  have bounds := length_escapeFrom_bounds JSON_STRING_SIZE (text (value.getD [])) []
  have widths : (fun c => (escapeByte c).length) =
      fun c => if c ∈ ([quote, backslash, 10, 13, 9] : Bytes) then 2 else 1 := by
    funext c
    exact length_escapeByte_eq c
  rw [widths] at bounds
  dsimp only at bounds
  rw [List.length_nil, Nat.zero_add] at bounds
  exact bounds

/-! ## The text of a member -/

section Members

variable {realloc : Nat → Bool} {jb : JsonBuilder} {key : String} {value : Option Bytes}

theorem WordKey.plain (word : WordKey key) : PlainKey key := by
  intro byte member
  have inside := word byte member
  refine ⟨?_, ?_, ?_⟩
  · rcases inside with ⟨low, -⟩ | ⟨low, -⟩ | ⟨low, -⟩ | rfl
    · exact UInt8.le_trans (by decide) low
    · exact UInt8.le_trans (by decide) low
    · exact UInt8.le_trans (by decide) low
    · decide
  · rintro rfl
    revert inside
    decide
  · rintro rfl
    revert inside
    decide

theorem IsStringMember.isMember (word : WordKey key) {text : Bytes}
    (stringMember : IsStringMember (ascii key) text) : IsMember text := by
  obtain ⟨string, isString, rfl⟩ := stringMember
  have isField : IsField (quote :: (ascii key ++ [quote]) ++ colon :: string) :=
    ⟨_, _, ⟨_, isChars_of_plain word.plain, rfl⟩, Or.inl isString, rfl⟩
  simpa using isField.member

theorem isStringMember_stringMember (key : String) (value : Option Bytes) :
    IsStringMember (ascii key) (stringMember key value) :=
  ⟨_, ⟨_, isChars_jsonEscapeString (value.getD []) JSON_STRING_SIZE, rfl⟩, rfl⟩

theorem length_stringMember (key : String) (value : Option Bytes) :
    (stringMember key value).length =
      (ascii key).length + (jsonEscapeString (value.getD []) JSON_STRING_SIZE).length + 5 := by
  simp only [stringMember, List.length_cons, List.length_append, List.length_nil]
  omega

/-- A part of a member at its front is a member only if it is the whole. -/
theorem isMember_prefix_iff (word : WordKey key) {text : Bytes}
    (front : text <+: stringMember key value) :
    IsMember text ↔ text = stringMember key value := by
  constructor
  · intro isMember
    obtain ⟨rest, same⟩ := front
    have split : stringMember key value = (quote :: (ascii key ++ [quote])) ++
        colon :: (quote :: (jsonEscapeString (value.getD []) JSON_STRING_SIZE ++ [quote])) := by
      simp [stringMember]
    obtain rfl := isMember.whole ⟨_, isChars_of_plain word.plain, rfl⟩
      ⟨_, isChars_jsonEscapeString (value.getD []) JSON_STRING_SIZE, rfl⟩ (same.trans split)
    rw [← same, List.append_nil]
  · rintro rfl
    exact (isStringMember_stringMember key value).isMember word

/-- What is appended: the member as far as it fits into its buffer, or nothing. -/
theorem JsonBuilder.addedText_eq :
    jb.addedText realloc key value = snprintf JSON_STRING_SIZE (stringMember key value) ∧
        (jb.separate realloc).HasRoom realloc
          (snprintf JSON_STRING_SIZE (stringMember key value)).length ∨
      jb.addedText realloc key value = [] ∧
        ¬(jb.separate realloc).HasRoom realloc
          (snprintf JSON_STRING_SIZE (stringMember key value)).length := by
  rw [JsonBuilder.addedText, JsonBuilder.addString]
  by_cases room : (jb.separate realloc).HasRoom realloc
      (snprintf JSON_STRING_SIZE (stringMember key value)).length
  · refine Or.inl ⟨?_, room⟩
    rw [JsonBuilder.append_of_hasRoom room, List.drop_left]
  · refine Or.inr ⟨?_, room⟩
    rw [JsonBuilder.append_of_not_hasRoom room, List.drop_length]

theorem JsonBuilder.addedText_prefix :
    jb.addedText realloc key value <+: stringMember key value := by
  rcases @JsonBuilder.addedText_eq realloc jb key value with ⟨added, -⟩ | ⟨added, -⟩
  · rw [added]
    exact List.take_prefix _ _
  · rw [added]
    exact List.nil_prefix

/-- The member is appended as a whole if it fits into its buffer, and the builder has room. -/
theorem JsonBuilder.addedText_whole_iff :
    jb.addedText realloc key value = stringMember key value ↔
      (ascii key).length + escapedLength value + 5 < JSON_STRING_SIZE ∧
        (jb.separate realloc).HasRoom realloc
          ((ascii key).length + escapedLength value + 5) := by
  obtain ⟨upper, lower⟩ := length_jsonEscapeString_bounds value
  have length := length_stringMember key value
  have size : JSON_STRING_SIZE = 4096 := rfl
  constructor
  · intro whole
    rcases @JsonBuilder.addedText_eq realloc jb key value with ⟨added, room⟩ | ⟨added, -⟩
    · rw [← added, whole] at room
      have short := congrArg List.length (whole.symm.trans added)
      rw [snprintf, List.length_take] at short
      have escaped : (jsonEscapeString (value.getD []) JSON_STRING_SIZE).length =
          escapedLength value := by omega
      rw [length, escaped] at room
      exact ⟨by omega, room⟩
    · have empty := congrArg List.length (whole.symm.trans added)
      rw [List.length_nil] at empty
      omega
  · rintro ⟨fits, room⟩
    have escaped : (jsonEscapeString (value.getD []) JSON_STRING_SIZE).length =
        escapedLength value := by omega
    have whole : snprintf JSON_STRING_SIZE (stringMember key value) = stringMember key value := by
      apply snprintf_of_lt
      omega
    rcases @JsonBuilder.addedText_eq realloc jb key value with ⟨added, -⟩ | ⟨-, full⟩
    · rw [added, whole]
    · rw [whole, length, escaped] at full
      exact absurd room full

theorem JsonBuilder.isMember_addedText_iff (word : WordKey key) :
    IsMember (jb.addedText realloc key value) ↔
      (ascii key).length + escapedLength value + 5 < JSON_STRING_SIZE ∧
        (jb.separate realloc).HasRoom realloc
          ((ascii key).length + escapedLength value + 5) := by
  rw [isMember_prefix_iff word JsonBuilder.addedText_prefix, JsonBuilder.addedText_whole_iff]

end Members

/-- The text that is appended is a member, and then the one that is meant, exactly if the key
and the escaped value leave the buffer room for the five other characters and the NUL, and the
builder has room for the member. -/
theorem string_member_iff (realloc : Nat → Bool) (jb : JsonBuilder) {key : String}
    (word : WordKey key) (value : Option Bytes) :
    let fits := (ascii key).length + escapedLength value + 5 < JSON_STRING_SIZE ∧
      (jb.separate realloc).HasRoom realloc ((ascii key).length + escapedLength value + 5)
    (IsStringMember (ascii key) (jb.addedText realloc key value) ↔ fits) ∧
      (IsMember (jb.addedText realloc key value) ↔ fits) := by
  intro fits
  have isMember := @JsonBuilder.isMember_addedText_iff realloc jb key value word
  refine ⟨⟨fun stringMember => isMember.mp (stringMember.isMember word), fun fits => ?_⟩, isMember⟩
  rw [JsonBuilder.addedText_whole_iff.mpr fits]
  exact isStringMember_stringMember key value

/-- A value with a quote and a line feed. -/
theorem string_member_escaped :
    let value : Option Bytes := some [97, 34, 10]
    let fits := (ascii "http_host").length + escapedLength value + 5 < JSON_STRING_SIZE ∧
      (({} : JsonBuilder).separate fun _ => true).HasRoom (fun _ => true)
        ((ascii "http_host").length + escapedLength value + 5)
    (IsStringMember (ascii "http_host")
        (({} : JsonBuilder).addedText (fun _ => true) "http_host" value) ↔ fits) ∧
      (IsMember (({} : JsonBuilder).addedText (fun _ => true) "http_host" value) ↔ fits) :=
  string_member_iff (fun _ => true) {} (by decide +kernel) (some [97, 34, 10])

/-- The quote at the end of a long value is lost. -/
theorem long_value_unclosed :
    ¬IsMember (({} : JsonBuilder).addedText (fun _ => true) "url"
      (some (List.replicate 4088 97))) := by
  have word : WordKey "url" := by decide +kernel
  have key : (ascii "url").length = 3 := by decide +kernel
  have length (count : Nat) : escapedLength (some (List.replicate count 97)) = count := by
    have single : (97 : UInt8) ∉ ([quote, backslash, 10, 13, 9] : Bytes) := by decide
    rw [escapedLength, Option.getD_some, text, List.takeWhile_replicate, if_pos (by decide),
      List.map_replicate, if_neg single, List.sum_replicate_nat, Nat.mul_one]
  rw [JsonBuilder.isMember_addedText_iff word, key, length]
  rintro ⟨fits, -⟩
  exact absurd fits (by decide)

end NetDefender.Output
