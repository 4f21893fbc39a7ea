import Mathlib.Data.List.TakeWhile
import NetDefender.Lib.CString

/-!
# The tokens of a line

`tokenize_string` of `parser.c` splits a line of the configuration file into tokens.  It reads
the buffer of the line byte by byte up to the NUL.  The memory from a pointer to the end of the
buffer is the list of its bytes, and a read behind that end is `none`.
-/

namespace NetDefender.Config

open CString

def exclamation : UInt8 := 33

def dquote : UInt8 := 34

def hash : UInt8 := 35

def lessThan : UInt8 := 60

def greaterThan : UInt8 := 62

/-! ## The scanner -/

/-- `while (isspace(*pos) && *pos != '\0') pos++`. -/
def skipSpaces : Bytes → Option Bytes
  | [] => none
  | c :: rest => if isspace c then skipSpaces rest else some (c :: rest)

/-- The bytes of a word end at white space, at a quote and at the NUL. -/
def takeWord : Bytes → Option (Bytes × Bytes)
  | [] => none
  | c :: rest =>
      if !isspace c ∧ c ≠ 0 ∧ c ≠ dquote then
        (takeWord rest).map fun (word, behind) => (c :: word, behind)
      else some ([], c :: rest)

/-- The loop that goes on behind the next `>`, from a byte on and with the byte in front of
it. -/
def skipAttribute : UInt8 → Bytes → Option Bytes
  | prev, [] => if prev = greaterThan then some [] else none
  | prev, c :: rest =>
      if prev ≠ greaterThan ∧ c ≠ 0 then skipAttribute c rest else some (c :: rest)

/-- Nothing but a line comment is left. -/
def atEnd (c : UInt8) : Bool := c = 0 ∨ c = exclamation ∨ c = hash

/-- White space is skipped, and the next turn of the loop follows unless the line ends. -/
def continueScan (turn : Bytes → Option (List Bytes)) (mem : Bytes) : Option (List Bytes) := do
  match ← skipSpaces mem with
  | [] => none
  | c :: rest => if atEnd c then some [] else turn (c :: rest)

/-- The loop of `tokenize_string`: the tokens from a byte on that is no white space.  Each turn
passes a byte, so that the fuel bounds the turns. -/
def scanTokens : Nat → Bytes → Option (List Bytes)
  | 0, _ => none
  | _ + 1, [] => none
  | fuel + 1, start :: rest =>
      if start = dquote then (continueScan (scanTokens fuel) rest).map ([dquote] :: ·)
      else do
        let (word, behind) ← takeWord (start :: rest)
        if start = lessThan then
          let behind ← skipAttribute (word.getLastD start) behind
          continueScan (scanTokens fuel) behind
        else (continueScan (scanTokens fuel) behind).map (word :: ·)

/-- `tokenize_string` on a buffer; the result may be `NULL`. -/
def tokenizeString (mem : Bytes) : Option (Option (List Bytes)) := do
  match ← skipSpaces mem with
  | [] => none
  | c :: rest =>
      if atEnd c then some none else (scanTokens (c :: rest).length (c :: rest)).map some

/-! ## More memory -/

section Memory

variable {mem left : Bytes}

theorem skipSpaces_append (skipped : skipSpaces mem = some left) (more : Bytes) :
    skipSpaces (mem ++ more) = some (left ++ more) := by
  induction mem with
  | nil => cases skipped
  | cons c rest ih =>
      rw [skipSpaces] at skipped
      rw [List.cons_append, skipSpaces]
      split at skipped
      next space => rw [if_pos space, ih skipped]
      next space =>
        cases skipped
        rw [if_neg space, List.cons_append]

theorem takeWord_append {word : Bytes} (taken : takeWord mem = some (word, left)) (more : Bytes) :
    takeWord (mem ++ more) = some (word, left ++ more) := by
  induction mem generalizing word with
  | nil => cases taken
  | cons c rest ih =>
      rw [takeWord] at taken
      rw [List.cons_append, takeWord]
      split at taken
      next inside =>
        simp only [Option.map_eq_some_iff, Prod.mk.injEq, Prod.exists] at taken
        obtain ⟨later, behind, result, rfl, rfl⟩ := taken
        rw [if_pos inside, ih result]
        rfl
      next ends =>
        cases taken
        rw [if_neg ends, List.cons_append]

theorem skipAttribute_append {prev : UInt8} (skipped : skipAttribute prev mem = some left)
    (more : Bytes) : skipAttribute prev (mem ++ more) = some (left ++ more) := by
  induction mem generalizing prev with
  | nil =>
      rw [skipAttribute] at skipped
      split at skipped
      next mark =>
        cases skipped
        cases more with
        | nil => simp [skipAttribute, mark]
        | cons c rest => simp [skipAttribute, mark]
      next => cases skipped
  | cons c rest ih =>
      rw [skipAttribute] at skipped
      rw [List.cons_append, skipAttribute]
      split at skipped
      next inside => rw [if_pos inside, ih skipped]
      next ends =>
        cases skipped
        rw [if_neg ends, List.cons_append]

theorem continueScan_append {turn turnMore : Bytes → Option (List Bytes)} {more : Bytes}
    (turns : ∀ mem found, turn mem = some found → turnMore (mem ++ more) = some found)
    {found : List Bytes} (scanned : continueScan turn mem = some found) :
    continueScan turnMore (mem ++ more) = some found := by
  simp only [continueScan, Option.bind_eq_bind, Option.bind_eq_some_iff] at scanned
  obtain ⟨left, skipped, scanned⟩ := scanned
  rw [continueScan, skipSpaces_append skipped, Option.bind_eq_bind, Option.bind_some]
  cases left with
  | nil => cases scanned
  | cons c rest =>
      rw [List.cons_append]
      dsimp only at scanned ⊢
      split at scanned
      next ends => rw [if_pos ends, scanned]
      next inside => rw [if_neg inside, ← List.cons_append, turns _ _ scanned]

/-- A scan that stays inside a buffer does not depend on what is behind the buffer. -/
theorem scanTokens_append {fuel enough : Nat} {found : List Bytes} (more : Bytes)
    (scanned : scanTokens fuel mem = some found) (le : fuel ≤ enough) :
    scanTokens enough (mem ++ more) = some found := by
  induction fuel generalizing enough mem found with
  | zero => cases scanned
  | succ fuel ih =>
      cases enough with
      | zero => cases le
      | succ enough =>
          have turns (mem : Bytes) (found : List Bytes)
              (scanned : scanTokens fuel mem = some found) :
              scanTokens enough (mem ++ more) = some found :=
            ih scanned (Nat.le_of_succ_le_succ le)
          cases mem with
          | nil => cases scanned
          | cons start rest =>
              rw [scanTokens] at scanned
              rw [List.cons_append, scanTokens]
              split at scanned
              next quote =>
                rw [Option.map_eq_some_iff] at scanned
                obtain ⟨later, scanned, rfl⟩ := scanned
                rw [if_pos quote, continueScan_append turns scanned]
                rfl
              next quote =>
                rw [if_neg quote]
                simp only [Option.bind_eq_bind, Option.bind_eq_some_iff, Prod.exists] at scanned
                obtain ⟨word, behind, taken, scanned⟩ := scanned
                rw [← List.cons_append, takeWord_append taken, Option.bind_eq_bind,
                  Option.bind_some]
                dsimp only
                split at scanned
                next comment =>
                  simp only [Option.bind_eq_some_iff] at scanned
                  obtain ⟨behind, skipped, scanned⟩ := scanned
                  rw [if_pos comment, skipAttribute_append skipped, Option.bind_eq_bind,
                    Option.bind_some, continueScan_append turns scanned]
                next comment =>
                  rw [Option.map_eq_some_iff] at scanned
                  obtain ⟨later, scanned, rfl⟩ := scanned
                  rw [if_neg comment, continueScan_append turns scanned]
                  rfl

theorem tokenizeString_append {found : Option (List Bytes)} (more : Bytes)
    (scanned : tokenizeString mem = some found) : tokenizeString (mem ++ more) = some found := by
  simp only [tokenizeString, Option.bind_eq_bind, Option.bind_eq_some_iff] at scanned
  obtain ⟨left, skipped, scanned⟩ := scanned
  rw [tokenizeString, skipSpaces_append skipped, Option.bind_eq_bind, Option.bind_some]
  cases left with
  | nil => cases scanned
  | cons c rest =>
      rw [List.cons_append]
      dsimp only at scanned ⊢
      split at scanned
      next ends => rw [if_pos ends, scanned]
      next inside =>
        rw [Option.map_eq_some_iff] at scanned
        obtain ⟨tokens, scanned, rfl⟩ := scanned
        rw [if_neg inside, ← List.cons_append, scanTokens_append more scanned (by simp)]
        rfl

end Memory

/-! ## Reading a line -/

/-- The bytes of a word. -/
def isWordByte (c : UInt8) : Bool := !isspace c && c ≠ dquote

/-- What is left of a text behind the first `>`. -/
def behindMark (s : Bytes) : Bytes := (s.dropWhile (· ≠ greaterThan)).tail

theorem length_behindMark_le (s : Bytes) : (behindMark s).length ≤ s.length := by
  rw [behindMark, List.length_tail]
  exact (Nat.sub_le _ _).trans (List.length_dropWhile_le _ s)

/-- Where the loop goes on behind a `<`: behind the word, if that ends with a `>`, and else
behind the next `>`. -/
def behindAttribute (rest : Bytes) : Bytes :=
  let behind := rest.dropWhile isWordByte
  if (rest.takeWhile isWordByte).getLast? = some greaterThan then behind else behindMark behind

theorem length_behindAttribute_le (rest : Bytes) :
    (behindAttribute rest).length ≤ rest.length := by
  rw [behindAttribute]
  split
  next => exact List.length_dropWhile_le _ rest
  next => exact (length_behindMark_le _).trans (List.length_dropWhile_le _ rest)

/-- The tokens of a line, with whatever the line begins. -/
def tokens : Bytes → List Bytes
  | [] => []
  | c :: rest =>
      if isspace c then tokens rest
      else if atEnd c then []
      else if c = dquote then [dquote] :: tokens rest
      else if c = lessThan then tokens (behindAttribute rest)
      else (c :: rest.takeWhile isWordByte) :: tokens (rest.dropWhile isWordByte)
termination_by s => s.length
decreasing_by
  · exact Nat.lt_succ_self _
  · exact Nat.lt_succ_self _
  · exact Nat.lt_succ_of_le (length_behindAttribute_le rest)
  · exact Nat.lt_succ_of_le (List.length_dropWhile_le _ rest)

/-- What `tokenize_string` makes of a line: a line without tokens is `NULL`, unless it begins
with a `<`. -/
def lineTokens (s : Bytes) : Option (List Bytes) :=
  match s.dropWhile isspace with
  | [] => none
  | c :: _ => if atEnd c then none else some (tokens s)

example : lineTokens (ascii "! a comment") = none := by decide +kernel

/-! ## Buffers with a line -/

section Line

variable {s tail : Bytes} {c : UInt8}

theorem skipSpaces_line (s tail : Bytes) :
    skipSpaces (s ++ 0 :: tail) = some (s.dropWhile isspace ++ 0 :: tail) := by
  induction s with
  | nil => rfl
  | cons c rest ih =>
      rw [List.cons_append, skipSpaces, List.dropWhile_cons]
      split
      next => exact ih
      next => rfl

theorem takeWord_line (text : 0 ∉ s) (tail : Bytes) :
    takeWord (s ++ 0 :: tail) =
      some (s.takeWhile isWordByte, s.dropWhile isWordByte ++ 0 :: tail) := by
  induction s with
  | nil => rfl
  | cons c rest ih =>
      rw [List.mem_cons, not_or] at text
      have bytes : (!isspace c ∧ c ≠ 0 ∧ c ≠ dquote) ↔ isWordByte c = true := by
        simp [isWordByte, Ne.symm text.1]
      rw [List.cons_append, takeWord, List.takeWhile_cons, List.dropWhile_cons]
      by_cases inside : isWordByte c = true
      · rw [if_pos (bytes.mpr inside), if_pos inside, if_pos inside, ih text.2]
        rfl
      · rw [if_neg (mt bytes.mp inside), if_neg inside, if_neg inside]
        rfl

theorem skipAttribute_line (text : 0 ∉ s) (prev : UInt8) (tail : Bytes) :
    skipAttribute prev (s ++ 0 :: tail) =
      some ((if prev = greaterThan then s else behindMark s) ++ 0 :: tail) := by
  induction s generalizing prev with
  | nil =>
      rw [List.nil_append, skipAttribute, if_neg (by simp)]
      simp [behindMark]
  | cons c rest ih =>
      rw [List.mem_cons, not_or] at text
      rw [List.cons_append, skipAttribute]
      by_cases mark : prev = greaterThan
      · rw [if_neg (by simp [mark]), if_pos mark]
        rfl
      · rw [if_pos ⟨mark, Ne.symm text.1⟩, ih text.2, if_neg mark, behindMark, behindMark,
          List.dropWhile_cons]
        by_cases here : c = greaterThan
        · simp [here]
        · simp [here]

theorem not_mem_dropWhile (text : 0 ∉ s) (p : UInt8 → Bool) : 0 ∉ s.dropWhile p :=
  fun member => text ((List.dropWhile_sublist p).subset member)

theorem not_mem_behindMark (text : 0 ∉ s) : 0 ∉ behindMark s :=
  fun member => text ((List.dropWhile_sublist _).subset (List.mem_of_mem_tail member))

theorem not_mem_behindAttribute (text : 0 ∉ s) : 0 ∉ behindAttribute s := by
  rw [behindAttribute]
  split
  next => exact not_mem_dropWhile text _
  next => exact not_mem_behindMark (not_mem_dropWhile text _)

theorem tokens_dropWhile (s : Bytes) : tokens (s.dropWhile isspace) = tokens s := by
  induction s with
  | nil => rfl
  | cons c rest ih =>
      rw [List.dropWhile_cons]
      split
      next blank => rw [ih, tokens, if_pos blank]
      next => rfl

/-- What is left begins with a byte that is not skipped. -/
theorem not_of_dropWhile {p : UInt8 → Bool} {rest : Bytes} (left : s.dropWhile p = c :: rest) :
    p c = false := by
  have head := List.head?_dropWhile_not p s
  rwa [left] at head

theorem continueScan_line {turn : Bytes → Option (List Bytes)}
    (turns : ∀ c rest, s.dropWhile isspace = c :: rest → atEnd c = false →
      turn (c :: rest ++ 0 :: tail) = some (tokens (c :: rest))) :
    continueScan turn (s ++ 0 :: tail) = some (tokens s) := by
  rw [continueScan, skipSpaces_line, Option.bind_eq_bind, Option.bind_some, ← tokens_dropWhile]
  cases left : s.dropWhile isspace with
  | nil =>
      rw [tokens]
      rfl
  | cons c rest =>
      have noSpace := not_of_dropWhile left
      rw [List.cons_append]
      dsimp only
      split
      next ends => rw [tokens, if_neg (by simp [noSpace]), if_pos ends]
      next more => exact turns c rest left (by simpa using more)

/-- The token or the comment that begins at a byte, and what follows. -/
theorem tokens_start {rest : Bytes} (noSpace : isspace c = false) (noEnd : atEnd c = false) :
    tokens (c :: rest) =
      if c = dquote then [dquote] :: tokens rest
      else if c = lessThan then tokens (behindAttribute rest)
      else (c :: rest.takeWhile isWordByte) :: tokens (rest.dropWhile isWordByte) := by
  rw [tokens, if_neg (by simp [noSpace]), if_neg (by simp [noEnd])]

/-- A `<` is no `>`, so that a comment ends with its first word only if more bytes follow. -/
theorem getLastD_lessThan (word : Bytes) :
    (lessThan :: word).getLastD lessThan = greaterThan ↔ word.getLast? = some greaterThan := by
  cases word with
  | nil => simp [lessThan, greaterThan]
  | cons c rest => simp [List.getLast?_cons, List.getLastD_eq_getLast?]

/-- The loop reads the tokens of a line, with fuel for each of its bytes. -/
theorem scanTokens_line {rest : Bytes} (fuel : Nat) (text : 0 ∉ c :: rest)
    (noSpace : isspace c = false) (noEnd : atEnd c = false)
    (enough : (c :: rest).length ≤ fuel) :
    scanTokens fuel (c :: rest ++ 0 :: tail) = some (tokens (c :: rest)) := by
  induction fuel generalizing c rest with
  | zero => cases enough
  | succ fuel ih =>
      have shorter : rest.length ≤ fuel := Nat.le_of_succ_le_succ enough
      have textRest : 0 ∉ rest := fun member => text (List.mem_cons_of_mem _ member)
      have go {s : Bytes} (text : 0 ∉ s) (short : s.length ≤ fuel) :
          continueScan (scanTokens fuel) (s ++ 0 :: tail) = some (tokens s) := by
        apply continueScan_line
        intro c rest left noEnd
        have kept := List.length_dropWhile_le isspace s
        rw [left] at kept
        exact ih (left ▸ not_mem_dropWhile text isspace) (not_of_dropWhile left) noEnd
          (kept.trans short)
      rw [tokens_start noSpace noEnd, List.cons_append, scanTokens]
      by_cases quoted : c = dquote
      · rw [if_pos quoted, if_pos quoted, go textRest shorter]
        rfl
      · have word : isWordByte c = true := by simp [isWordByte, noSpace, quoted]
        have taken := takeWord_line text tail
        rw [List.takeWhile_cons_of_pos word, List.dropWhile_cons_of_pos word,
          List.cons_append] at taken
        rw [if_neg quoted, if_neg quoted, taken, Option.bind_eq_bind, Option.bind_some]
        dsimp only
        by_cases opened : c = lessThan
        · subst opened
          have behind : (if (lessThan :: rest.takeWhile isWordByte).getLastD lessThan =
                greaterThan then rest.dropWhile isWordByte
                else behindMark (rest.dropWhile isWordByte)) = behindAttribute rest := by
            simp only [behindAttribute, getLastD_lessThan]
          rw [if_pos rfl, if_pos rfl, skipAttribute_line (not_mem_dropWhile textRest _),
            Option.bind_eq_bind, Option.bind_some, behind]
          exact go (not_mem_behindAttribute textRest)
            ((length_behindAttribute_le rest).trans shorter)
        · rw [if_neg opened, if_neg opened,
            go (not_mem_dropWhile textRest _) ((List.length_dropWhile_le _ rest).trans shorter)]
          rfl

/-- On a line in a buffer, `tokenize_string` does not depend on what stands behind the NUL. -/
theorem tokenizeString_line (text : 0 ∉ s) (tail : Bytes) :
    tokenizeString (s ++ 0 :: tail) = some (lineTokens s) := by
  rw [tokenizeString, skipSpaces_line, Option.bind_eq_bind, Option.bind_some, lineTokens]
  cases left : s.dropWhile isspace with
  | nil => rfl
  | cons c rest =>
      rw [List.cons_append]
      dsimp only
      split
      next => rfl
      next more =>
        have noEnd : atEnd c = false := by simpa using more
        rw [← List.cons_append, scanTokens_line _ (left ▸ not_mem_dropWhile text isspace)
          (not_of_dropWhile left) noEnd (by simp), ← left, tokens_dropWhile]
        rfl

end Line

end NetDefender.Config
