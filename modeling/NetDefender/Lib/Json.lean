import NetDefender.Lib.CString

/-!
# JSON texts

The grammar of JSON over bytes.  Characters outside of ASCII are not looked at: every byte
from 128 on may stand in a string.  Strings and numbers end where they end, so that a text
that begins with complete members can be read in one way only.
-/

namespace NetDefender.Json

open CString

abbrev quote : UInt8 := 34
abbrev comma : UInt8 := 44
abbrev colon : UInt8 := 58
abbrev openBracket : UInt8 := 91
abbrev backslash : UInt8 := 92
abbrev closeBracket : UInt8 := 93
abbrev openBrace : UInt8 := 123
abbrev closeBrace : UInt8 := 125

/-! ## The grammar -/

/-- White space between tokens. -/
def IsBlank (text : Bytes) : Prop := ∀ byte ∈ text, byte ∈ ([32, 9, 10, 13] : Bytes)

/-- The characters between the quotes of a string. -/
inductive IsChars : Bytes → Prop where
  | nil : IsChars []
  | plain {byte : UInt8} {rest : Bytes} :
      32 ≤ byte → byte ≠ quote → byte ≠ backslash → IsChars rest → IsChars (byte :: rest)
  | escape {byte : UInt8} {rest : Bytes} :
      byte ∈ ascii "\"\\/bfnrt" → IsChars rest → IsChars (backslash :: byte :: rest)
  | unicode {digits rest : Bytes} :
      digits.length = 4 → (∀ digit ∈ digits, digit ∈ ascii "0123456789abcdefABCDEF") →
      IsChars rest → IsChars (backslash :: 117 :: (digits ++ rest))

def IsString (text : Bytes) : Prop := ∃ chars, IsChars chars ∧ text = quote :: (chars ++ [quote])

def IsDigits (text : Bytes) : Prop := text ≠ [] ∧ ∀ byte ∈ text, isdigit byte = true

/-- A number: sign, whole part, fraction and exponent. -/
inductive IsNumber : Bytes → Prop where
  | mk {sign whole fraction exponent : Bytes} :
      sign = [] ∨ sign = ascii "-" →
      whole = ascii "0" ∨ (IsDigits whole ∧ whole.head? ≠ some 48) →
      fraction = [] ∨ (∃ digits, fraction = 46 :: digits ∧ IsDigits digits) →
      exponent = [] ∨ (∃ mark ∈ ascii "eE", ∃ digits, IsDigits digits ∧
        (exponent = mark :: digits ∨ ∃ plus ∈ ascii "+-", exponent = mark :: plus :: digits)) →
      IsNumber (sign ++ whole ++ fraction ++ exponent)

mutual

inductive IsValue : Bytes → Prop where
  | string {text : Bytes} : IsString text → IsValue text
  | number {text : Bytes} : IsNumber text → IsValue text
  | literal {text : Bytes} : text ∈ ["true", "false", "null"].map ascii → IsValue text
  | object {text : Bytes} : IsObject text → IsValue text
  | array {text : Bytes} : IsArray text → IsValue text

inductive IsObject : Bytes → Prop where
  | empty {blank : Bytes} : IsBlank blank → IsObject (openBrace :: (blank ++ [closeBrace]))
  | members {members : Bytes} :
      IsMembers members → IsObject (openBrace :: (members ++ [closeBrace]))

/-- The members of an object, with commas between them. -/
inductive IsMembers : Bytes → Prop where
  | last {member : Bytes} : IsMember member → IsMembers member
  | cons {member rest : Bytes} :
      IsMember member → IsMembers rest → IsMembers (member ++ comma :: rest)

/-- A member, with the white space around it. -/
inductive IsMember : Bytes → Prop where
  | mk {before key middle after value last : Bytes} :
      IsBlank before → IsString key → IsBlank middle → IsBlank after → IsValue value →
      IsBlank last → IsMember (before ++ (key ++ (middle ++ colon :: (after ++ (value ++ last)))))

inductive IsArray : Bytes → Prop where
  | empty {blank : Bytes} : IsBlank blank → IsArray (openBracket :: (blank ++ [closeBracket]))
  | elements {elements : Bytes} :
      IsElements elements → IsArray (openBracket :: (elements ++ [closeBracket]))

/-- The elements of an array, with commas between them. -/
inductive IsElements : Bytes → Prop where
  | last {before value after : Bytes} :
      IsBlank before → IsValue value → IsBlank after → IsElements (before ++ value ++ after)
  | cons {before value after rest : Bytes} :
      IsBlank before → IsValue value → IsBlank after → IsElements rest →
      IsElements (before ++ value ++ after ++ comma :: rest)

end

/-! ## Tokens end where they end -/

theorem IsBlank.nil : IsBlank [] := fun _ member => absurd member List.not_mem_nil

/-- No white space stands before a byte that is not blank. -/
theorem IsBlank.eq_nil {blank rest rest' : Bytes} {byte : UInt8} (blanks : IsBlank blank)
    (other : byte ∉ ([32, 9, 10, 13] : Bytes)) (same : blank ++ rest = byte :: rest') :
    blank = [] := by
  cases blank with
  | nil => rfl
  | cons first blank =>
      obtain ⟨rfl, -⟩ := List.cons.inj same
      exact absurd (blanks first List.mem_cons_self) other

/-- The characters of a string are those up to the first quote that is not escaped. -/
theorem IsChars.append_inj {chars chars' rest rest' : Bytes} (first : IsChars chars)
    (second : IsChars chars') (same : chars ++ quote :: rest = chars' ++ quote :: rest') :
    chars = chars' ∧ rest = rest' := by
  induction first generalizing chars' with
  | nil =>
      cases second with
      | nil => exact ⟨rfl, (List.cons.inj same).2⟩
      | plain _ other _ _ => exact absurd (List.cons.inj same).1.symm other
      | escape _ _ => exact absurd (List.cons.inj same).1 (by decide)
      | unicode _ _ _ => exact absurd (List.cons.inj same).1 (by decide)
  | plain _ noQuote noEscape _ ih =>
      cases second with
      | nil => exact absurd (List.cons.inj same).1 noQuote
      | plain _ _ _ tail =>
          obtain ⟨rfl, beyond⟩ := List.cons.inj same
          obtain ⟨rfl, rfl⟩ := ih tail beyond
          exact ⟨rfl, rfl⟩
      | escape _ _ => exact absurd (List.cons.inj same).1 noEscape
      | unicode _ _ _ => exact absurd (List.cons.inj same).1 noEscape
  | escape escapable _ ih =>
      cases second with
      | nil => exact absurd (List.cons.inj same).1 (by decide)
      | plain _ _ noEscape _ => exact absurd (List.cons.inj same).1.symm noEscape
      | escape _ tail =>
          obtain ⟨rfl, beyond⟩ := List.cons.inj (List.cons.inj same).2
          obtain ⟨rfl, rfl⟩ := ih tail beyond
          exact ⟨rfl, rfl⟩
      | unicode _ _ _ =>
          obtain ⟨rfl, -⟩ := List.cons.inj (List.cons.inj same).2
          exact absurd escapable (by decide +kernel)
  | unicode four _ _ ih =>
      cases second with
      | nil => exact absurd (List.cons.inj same).1 (by decide)
      | plain _ _ noEscape _ => exact absurd (List.cons.inj same).1.symm noEscape
      | escape escapable _ =>
          obtain ⟨rfl, -⟩ := List.cons.inj (List.cons.inj same).2
          exact absurd escapable (by decide +kernel)
      | unicode four' _ tail =>
          rw [List.cons_append, List.cons_append, List.cons_append, List.cons_append,
            List.append_assoc, List.append_assoc] at same
          have beyond := (List.cons.inj (List.cons.inj same).2).2
          obtain ⟨rfl, later⟩ := List.append_inj beyond (four.trans four'.symm)
          obtain ⟨rfl, rfl⟩ := ih tail later
          exact ⟨rfl, rfl⟩

theorem IsString.append_inj {text text' rest rest' : Bytes} (first : IsString text)
    (second : IsString text') (same : text ++ rest = text' ++ rest') :
    text = text' ∧ rest = rest' := by
  obtain ⟨chars, first, rfl⟩ := first
  obtain ⟨chars', second, rfl⟩ := second
  rw [List.cons_append, List.cons_append, List.append_assoc, List.append_assoc] at same
  obtain ⟨rfl, rfl⟩ := first.append_inj second (List.cons.inj same).2
  exact ⟨rfl, rfl⟩

/-- The bytes that stand in numbers. -/
def isNumeric (byte : UInt8) : Bool := isdigit byte || byte ∈ ([43, 45, 46, 69, 101] : Bytes)

theorem isNumeric_of_isdigit {byte : UInt8} (digit : isdigit byte = true) :
    isNumeric byte = true := by
  rw [isNumeric, digit, Bool.true_or]

theorem IsDigits.numeric {text : Bytes} (digits : IsDigits text) :
    ∀ byte ∈ text, isNumeric byte = true :=
  fun byte member => isNumeric_of_isdigit (digits.2 byte member)

theorem IsNumber.numeric {text : Bytes} (number : IsNumber text) :
    ∀ byte ∈ text, isNumeric byte = true := by
  obtain ⟨sign, whole, fraction, exponent⟩ := number
  intro byte member
  simp only [List.mem_append] at member
  rcases member with ((member | member) | member) | member
  · rcases sign with rfl | rfl
    · cases member
    · revert byte
      decide +kernel
  · rcases whole with rfl | ⟨digits, -⟩
    · revert byte
      decide +kernel
    · exact digits.numeric byte member
  · rcases fraction with rfl | ⟨digits, rfl, all⟩
    · cases member
    · rcases List.mem_cons.mp member with rfl | member
      · decide
      · exact all.numeric byte member
  · have marks : ∀ mark ∈ ascii "eE", isNumeric mark = true := by decide +kernel
    have signs : ∀ plus ∈ ascii "+-", isNumeric plus = true := by decide +kernel
    rcases exponent with rfl | ⟨mark, marked, digits, all, rfl | ⟨plus, signed, rfl⟩⟩
    · cases member
    · rcases List.mem_cons.mp member with rfl | member
      · exact marks _ marked
      · exact all.numeric byte member
    · rcases List.mem_cons.mp member with rfl | member
      · exact marks _ marked
      · rcases List.mem_cons.mp member with rfl | member
        · exact signs _ signed
        · exact all.numeric byte member

theorem IsNumber.ne_nil {text : Bytes} (number : IsNumber text) : text ≠ [] := by
  obtain ⟨-, whole, -, -⟩ := number
  intro none
  obtain ⟨⟨⟨-, rfl⟩, -⟩, -⟩ : ((_ ∧ _) ∧ _) ∧ _ := by
    simpa only [List.append_eq_nil_iff] using none
  rcases whole with empty | ⟨digits, -⟩
  · exact absurd empty (by decide +kernel)
  · exact digits.1 rfl

/-- Two runs of numeric bytes that are followed by other bytes are the same. -/
theorem numeric_append_inj {run run' rest rest' : Bytes}
    (first : ∀ byte ∈ run, isNumeric byte = true)
    (second : ∀ byte ∈ run', isNumeric byte = true)
    (ends : ∀ byte ∈ rest.head?, isNumeric byte = false)
    (ends' : ∀ byte ∈ rest'.head?, isNumeric byte = false)
    (same : run ++ rest = run' ++ rest') : run = run' ∧ rest = rest' := by
  induction run generalizing run' with
  | nil =>
      cases run' with
      | nil => exact ⟨rfl, same⟩
      | cons byte run' =>
          have ended := ends byte (by rw [show rest = _ from same]; rfl)
          exact absurd (second byte List.mem_cons_self) (ended ▸ Bool.false_ne_true)
  | cons byte run ih =>
      cases run' with
      | nil =>
          have ended := ends' byte (by rw [← show _ = rest' from same]; rfl)
          exact absurd (first byte List.mem_cons_self) (ended ▸ Bool.false_ne_true)
      | cons byte' run' =>
          obtain ⟨rfl, beyond⟩ := List.cons.inj same
          obtain ⟨rfl, rfl⟩ := ih (fun byte member => first byte (List.mem_cons_of_mem _ member))
            (fun byte member => second byte (List.mem_cons_of_mem _ member)) beyond
          exact ⟨rfl, rfl⟩

/-! ## Values by their first byte -/

theorem IsString.head? {text : Bytes} (string : IsString text) : text.head? = some quote := by
  obtain ⟨chars, -, rfl⟩ := string
  rfl

theorem IsObject.head? {text : Bytes} (object : IsObject text) :
    text.head? = some openBrace := by
  cases object <;> rfl

theorem IsArray.head? {text : Bytes} (array : IsArray text) : text.head? = some openBracket := by
  cases array <;> rfl

theorem IsNumber.head? {text : Bytes} (number : IsNumber text) :
    ∃ byte, text.head? = some byte ∧ isNumeric byte = true := by
  cases text with
  | nil => exact absurd rfl number.ne_nil
  | cons byte text => exact ⟨byte, rfl, number.numeric byte List.mem_cons_self⟩

theorem literal_head? {text : Bytes} (literal : text ∈ ["true", "false", "null"].map ascii) :
    ∃ byte ∈ ascii "tfn", text.head? = some byte := by
  revert text
  decide +kernel

/-- The first byte of a value, with what it says of the value. -/
theorem IsValue.head? {text : Bytes} (value : IsValue text) :
    ∃ byte, text.head? = some byte ∧ (byte = quote → IsString text) ∧
      (isNumeric byte = true → IsNumber text) := by
  cases value with
  | string string => exact ⟨quote, string.head?, fun _ => string, fun wrong => nomatch wrong⟩
  | number number =>
      obtain ⟨byte, first, numeric⟩ := number.head?
      refine ⟨byte, first, ?_, fun _ => number⟩
      rintro rfl
      cases numeric
  | literal literal =>
      obtain ⟨byte, member, first⟩ := literal_head? literal
      have others : ∀ byte ∈ ascii "tfn", byte ≠ quote ∧ isNumeric byte = false := by
        decide +kernel
      obtain ⟨noQuote, noNumber⟩ := others byte member
      exact ⟨byte, first, fun wrong => absurd wrong noQuote,
        fun wrong => absurd wrong (noNumber ▸ Bool.false_ne_true)⟩
  | object object =>
      exact ⟨openBrace, object.head?, fun wrong => absurd wrong (by decide),
        fun wrong => nomatch wrong⟩
  | array array =>
      exact ⟨openBracket, array.head?, fun wrong => absurd wrong (by decide),
        fun wrong => nomatch wrong⟩

/-! ## Members that are strings and numbers -/

/-- A string or a number. -/
def IsScalar (text : Bytes) : Prop := IsString text ∨ IsNumber text

/-- A member with a string or a number, and no white space. -/
def IsField (text : Bytes) : Prop :=
  ∃ key value, IsString key ∧ IsScalar value ∧ text = key ++ colon :: value

theorem IsScalar.value {text : Bytes} (scalar : IsScalar text) : IsValue text :=
  scalar.elim IsValue.string IsValue.number

/-- A blank byte is not numeric. -/
theorem numeric_of_blank {byte : UInt8} (blank : byte ∈ ([32, 9, 10, 13] : Bytes)) :
    isNumeric byte = false := by
  simp only [List.mem_cons, List.not_mem_nil, or_false] at blank
  rcases blank with rfl | rfl | rfl | rfl
  all_goals rfl

theorem IsScalar.head? {text : Bytes} (scalar : IsScalar text) :
    ∃ byte, text.head? = some byte ∧ byte ∉ ([32, 9, 10, 13] : Bytes) := by
  rcases scalar with string | number
  · exact ⟨quote, string.head?, by decide⟩
  · obtain ⟨byte, first, numeric⟩ := number.head?
    refine ⟨byte, first, fun member => ?_⟩
    exact absurd numeric (numeric_of_blank member ▸ Bool.false_ne_true)

theorem IsField.head? {text : Bytes} (field : IsField text) : text.head? = some quote := by
  obtain ⟨key, value, ⟨chars, -, rfl⟩, -, rfl⟩ := field
  rfl

theorem IsField.member {text : Bytes} (field : IsField text) : IsMember text := by
  obtain ⟨key, value, string, scalar, rfl⟩ := field
  have member := IsMember.mk .nil string .nil .nil scalar.value .nil
  simpa only [List.nil_append, List.append_nil] using member

/-- A value that begins like a scalar is this scalar. -/
theorem IsValue.append_inj {value scalar rest rest' : Bytes} (first : IsValue value)
    (second : IsScalar scalar) (ends : ∀ byte ∈ rest.head?, isNumeric byte = false)
    (ends' : ∀ byte ∈ rest'.head?, isNumeric byte = false)
    (same : value ++ rest = scalar ++ rest') : value = scalar ∧ rest = rest' := by
  obtain ⟨byte, begins, asString, asNumber⟩ := first.head?
  have heads : scalar.head? = some byte := by
    obtain ⟨byte', begins', -⟩ := second.head?
    have both := congrArg List.head? same
    rw [List.head?_append, List.head?_append, begins, begins'] at both
    rw [begins']
    exact both.symm
  rcases second with string | number
  · have quoted : byte = quote := Option.some.inj (heads.symm.trans string.head?)
    exact (asString quoted).append_inj string same
  · obtain ⟨byte', begins', numeric⟩ := number.head?
    obtain rfl : byte = byte' := Option.some.inj (heads.symm.trans begins')
    exact numeric_append_inj (asNumber numeric).numeric number.numeric ends ends' same

theorem numeric_head {byte : UInt8} {rest : Bytes} (other : isNumeric byte = false) :
    ∀ first ∈ (byte :: rest).head?, isNumeric first = false := by
  rintro first ⟨⟩
  exact other

/-- A member that begins with this key has no white space before its value. -/
theorem IsMember.of_key {member key beyond rest : Bytes} (first : IsMember member)
    (string : IsString key) {byte : UInt8} (begins : beyond.head? = some byte)
    (solid : byte ∉ ([32, 9, 10, 13] : Bytes)) (same : member ++ rest = key ++ colon :: beyond) :
    ∃ value last, IsValue value ∧ IsBlank last ∧ member = key ++ colon :: (value ++ last) ∧
      value ++ (last ++ rest) = beyond := by
  cases first with
  | @mk before key' middle after value last front string' gap space isValue trail =>
      simp only [List.append_assoc, List.cons_append] at same
      have noFront : before = [] := by
        obtain ⟨chars, -, rfl⟩ := string
        exact front.eq_nil (by decide) same
      subst noFront
      obtain ⟨rfl, beyondKey⟩ := string'.append_inj string same
      obtain rfl : middle = [] := gap.eq_nil (by decide) beyondKey
      have beyondColon := (List.cons.inj beyondKey).2
      have noSpace : after = [] := by
        obtain ⟨others, rfl⟩ := List.head?_eq_some_iff.mp begins
        exact space.eq_nil solid beyondColon
      subst noSpace
      exact ⟨value, last, isValue, trail, rfl, beyondColon⟩

/-- A member that begins like a field is this field, if a comma ends the field. -/
theorem IsMember.append_inj {member field rest rest' : Bytes} (first : IsMember member)
    (second : IsField field) (ends : ∀ byte ∈ rest.head?, isNumeric byte = false)
    (same : member ++ rest = field ++ comma :: rest') :
    member = field ∧ rest = comma :: rest' := by
  obtain ⟨key, value', string, scalar, rfl⟩ := second
  rw [List.append_assoc, List.cons_append] at same
  obtain ⟨byte, begins, solid⟩ := scalar.head?
  have begins' : (value' ++ comma :: rest').head? = some byte := by
    rw [List.head?_append, begins, Option.some_or]
  obtain ⟨value, last, isValue, trail, rfl, beyond⟩ := first.of_key string begins' solid same
  have ends' : ∀ byte ∈ (last ++ rest).head?, isNumeric byte = false := by
    cases last with
    | nil => exact ends
    | cons byte last => exact numeric_head (numeric_of_blank (trail byte List.mem_cons_self))
  obtain ⟨rfl, beyondValue⟩ := isValue.append_inj scalar ends' (numeric_head rfl) beyond
  obtain rfl : last = [] := trail.eq_nil (by decide) beyondValue
  rw [List.append_nil]
  exact ⟨rfl, beyondValue⟩

/-- Nothing shorter than a member with a string is a member at its front. -/
theorem IsMember.whole {member key string rest : Bytes} (first : IsMember member)
    (isKey : IsString key) (isString : IsString string)
    (same : member ++ rest = key ++ colon :: string) : rest = [] := by
  obtain ⟨value, last, isValue, -, -, beyond⟩ :=
    first.of_key isKey isString.head? (by decide) same
  obtain ⟨byte, begins, quoted, -⟩ := isValue.head?
  have first : byte = quote := by
    have heads := congrArg List.head? beyond
    rw [List.head?_append, begins, Option.some_or, isString.head?] at heads
    exact Option.some.inj heads
  rw [← List.append_nil string] at beyond
  have nothing := ((quoted first).append_inj isString beyond).2
  exact (List.append_eq_nil_iff.mp nothing).2

/-- The members after a field at the front. -/
theorem IsMembers.tail {members field rest : Bytes} (isMembers : IsMembers members)
    (isField : IsField field) (same : members ++ [closeBrace] = field ++ comma :: rest) :
    ∃ others, IsMembers others ∧ others ++ [closeBrace] = rest := by
  cases isMembers with
  | last member =>
      obtain ⟨-, wrong⟩ := member.append_inj isField
        (numeric_head rfl) same
      exact absurd (List.cons.inj wrong).1 (by decide)
  | @cons member others isMember isMembers =>
      rw [List.append_assoc, List.cons_append] at same
      obtain ⟨-, beyond⟩ := isMember.append_inj isField
        (numeric_head rfl) same
      exact ⟨others, isMembers, (List.cons.inj beyond).2⟩

/-- Members begin with a string. -/
theorem IsMembers.head? {members : Bytes} (isMembers : IsMembers members) :
    ∃ byte ∈ ([32, 9, 10, 13, quote] : Bytes), members.head? = some byte := by
  have head {member : Bytes} (isMember : IsMember member) :
      ∃ byte ∈ ([32, 9, 10, 13, quote] : Bytes), member.head? = some byte := by
    cases isMember with
    | @mk before key middle after value last front string _ _ _ _ =>
        cases before with
        | nil =>
            obtain ⟨chars, -, rfl⟩ := string
            exact ⟨quote, by decide, rfl⟩
        | cons byte before =>
            exact ⟨byte, List.mem_append_left [quote] (front byte List.mem_cons_self), rfl⟩
  cases isMembers with
  | last member => exact head member
  | cons member _ =>
      obtain ⟨byte, begins, first⟩ := head member
      refine ⟨byte, begins, ?_⟩
      rw [List.head?_append, first, Option.some_or]

/-! ## Objects -/

/-- Fields with a comma after each. -/
def listed (fields : List Bytes) : Bytes := fields.flatMap fun field => field ++ [comma]

theorem listed_cons (field : Bytes) (fields : List Bytes) :
    listed (field :: fields) = field ++ comma :: listed fields := by
  rw [listed, List.flatMap_cons, List.append_assoc]
  rfl

theorem listed_append (fields fields' : List Bytes) :
    listed (fields ++ fields') = listed fields ++ listed fields' := List.flatMap_append

/-- After a list of fields there are more members. -/
theorem IsMembers.drop {fields : List Bytes} (areFields : ∀ field ∈ fields, IsField field)
    {members rest : Bytes} (isMembers : IsMembers members)
    (same : members ++ [closeBrace] = listed fields ++ rest) :
    ∃ others, IsMembers others ∧ others ++ [closeBrace] = rest := by
  induction fields generalizing members with
  | nil => exact ⟨members, isMembers, same⟩
  | cons field fields ih =>
      rw [listed_cons, List.append_assoc, List.cons_append] at same
      obtain ⟨others, isMembers', same'⟩ :=
        isMembers.tail (areFields field List.mem_cons_self) same
      exact ih (fun field member => areFields field (List.mem_cons_of_mem _ member)) isMembers'
        same'

/-- No object opens a brace where a member should begin. -/
theorem not_isObject_of_brace {fields : List Bytes} {rest : Bytes}
    (areFields : ∀ field ∈ fields, IsField field) :
    ¬IsObject (openBrace :: (listed fields ++ openBrace :: rest)) := by
  intro object
  generalize same : openBrace :: (listed fields ++ openBrace :: rest) = text at object
  cases object with
  | @empty blank isBlank =>
      have inside := (List.cons.inj same).2
      cases fields with
      | nil =>
          obtain rfl : blank = [] := isBlank.eq_nil (by decide) inside.symm
          exact absurd (List.cons.inj inside).1 (by decide)
      | cons field fields =>
          obtain ⟨others, rfl⟩ :=
            List.head?_eq_some_iff.mp (areFields field List.mem_cons_self).head?
          rw [listed_cons] at inside
          obtain rfl : blank = [] := isBlank.eq_nil (by decide) inside.symm
          exact absurd (List.cons.inj inside).1 (by decide)
  | @members members isMembers =>
      obtain ⟨others, isMembers', same'⟩ :=
        isMembers.drop areFields (List.cons.inj same).2.symm
      obtain ⟨byte, begins, first⟩ := isMembers'.head?
      have brace := congrArg List.head? same'
      rw [List.head?_append, first, Option.some_or, List.head?_cons] at brace
      obtain rfl := Option.some.inj brace
      exact absurd begins (by decide)

/-- Fields with commas between them are members. -/
theorem isMembers_of_fields {fields : List Bytes} {last : Bytes}
    (areFields : ∀ field ∈ fields, IsField field) (isField : IsField last) :
    IsMembers (listed fields ++ last) := by
  induction fields with
  | nil => exact .last isField.member
  | cons field fields ih =>
      rw [listed_cons, List.append_assoc, List.cons_append]
      apply IsMembers.cons (areFields field List.mem_cons_self).member
      exact ih fun field member => areFields field (List.mem_cons_of_mem _ member)

end NetDefender.Json
