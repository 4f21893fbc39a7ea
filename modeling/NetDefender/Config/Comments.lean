import NetDefender.Config.Tokens

/-!
# Range comments

A range comment begins with a `<` where a token would begin and ends with the next `>`.  The
scanner first passes the word that the comment begins with and only then looks for the `>`, so
that a word glued to a comment is passed with it, and what follows up to the next `>` as well.
-/

namespace NetDefender.Config

open CString

/-- The line with a space for every range comment. -/
def strip : Bytes → Bytes
  | [] => []
  | c :: rest =>
      if isspace c then c :: strip rest
      else if atEnd c then c :: rest
      else if c = dquote then c :: strip rest
      else if c = lessThan then
        if greaterThan ∈ rest then 32 :: strip (behindMark rest) else c :: rest
      else c :: rest.takeWhile isWordByte ++ strip (rest.dropWhile isWordByte)
termination_by s => s.length
decreasing_by
  · exact Nat.lt_succ_self _
  · exact Nat.lt_succ_self _
  · exact Nat.lt_succ_of_le (length_behindMark_le rest)
  · exact Nat.lt_succ_of_le (List.length_dropWhile_le _ rest)

/-- The line comment of a line, with what it begins with. -/
def lineComment : Bytes → Bytes
  | [] => []
  | c :: rest =>
      if isspace c then lineComment rest
      else if atEnd c then c :: rest
      else if c = dquote then lineComment rest
      else if c = lessThan then
        if greaterThan ∈ rest then lineComment (behindMark rest) else []
      else lineComment (rest.dropWhile isWordByte)
termination_by s => s.length
decreasing_by
  · exact Nat.lt_succ_self _
  · exact Nat.lt_succ_self _
  · exact Nat.lt_succ_of_le (length_behindMark_le rest)
  · exact Nat.lt_succ_of_le (List.length_dropWhile_le _ rest)

/-- The comment that is left by its `<` has white space or a quote in front of its `>`. -/
def isLoose (rest : Bytes) : Bool := (rest.takeWhile (· ≠ greaterThan)).any (!isWordByte ·)

/-- No word is glued to the front of this text; a line comment without a `>` does not count. -/
def isFree : Bytes → Bool
  | [] => true
  | c :: rest => !isWordByte c ∨ c = lessThan ∨ (atEnd c ∧ greaterThan ∉ rest)

/-- No word is glued to a range comment, unless the comment has white space or a quote in it. -/
def isDetached : Bytes → Bool
  | [] => true
  | c :: rest =>
      if isspace c then isDetached rest
      else if atEnd c then true
      else if c = dquote then isDetached rest
      else if c = lessThan then
        if greaterThan ∈ rest then
          (isLoose rest || isFree (behindMark rest)) && isDetached (behindMark rest)
        else true
      else isDetached (rest.dropWhile isWordByte)
termination_by s => s.length
decreasing_by
  · exact Nat.lt_succ_self _
  · exact Nat.lt_succ_self _
  · exact Nat.lt_succ_of_le (length_behindMark_le rest)
  · exact Nat.lt_succ_of_le (List.length_dropWhile_le _ rest)

/-- The first byte that is no white space begins a token. -/
def beginsToken (s : Bytes) : Bool :=
  match s.dropWhile isspace with
  | [] => false
  | c :: _ => !atEnd c ∧ c ≠ lessThan

/-- The first byte that is no white space is a `<`. -/
def beginsComment (s : Bytes) : Bool := (s.dropWhile isspace).head? = some lessThan

/-! ## Marks -/

section Marks

variable {rest body behind : Bytes}

theorem behindMark_append_of_not_mem (unmarked : greaterThan ∉ body) :
    behindMark (body ++ behind) = behindMark behind := by
  rw [behindMark, List.dropWhile_append_of_pos, behindMark]
  intro c member
  simpa using ne_of_mem_of_not_mem member unmarked

theorem behindMark_append (body : Bytes) (unmarked : greaterThan ∉ body) (behind : Bytes) :
    behindMark (body ++ greaterThan :: behind) = behind := by
  rw [behindMark_append_of_not_mem unmarked]
  simp [behindMark]

theorem behindMark_eq_nil (unmarked : greaterThan ∉ rest) : behindMark rest = [] := by
  rw [behindMark, List.dropWhile_eq_nil_iff.mpr, List.tail_nil]
  intro c member
  simpa using ne_of_mem_of_not_mem member unmarked

theorem behindAttribute_eq_nil (unmarked : greaterThan ∉ rest) : behindAttribute rest = [] := by
  rw [behindAttribute, if_neg, behindMark_eq_nil]
  · exact fun member => unmarked ((List.dropWhile_sublist _).subset member)
  · intro last
    exact unmarked ((List.takeWhile_sublist _).subset (List.mem_of_getLast? last))

/-- A closed comment is its body, the `>` and what is behind. -/
theorem exists_body (closed : greaterThan ∈ rest) :
    ∃ body, greaterThan ∉ body ∧ rest = body ++ greaterThan :: behindMark rest ∧
      isLoose rest = body.any (!isWordByte ·) := by
  refine ⟨rest.takeWhile (· ≠ greaterThan), ?_, ?_, rfl⟩
  · intro member
    have := List.mem_takeWhile_imp member
    simp at this
  · cases left : rest.dropWhile (· ≠ greaterThan) with
    | nil =>
        have := List.dropWhile_eq_nil_iff.mp left greaterThan closed
        simp at this
    | cons c more =>
        have mark : c = greaterThan := by simpa using not_of_dropWhile left
        rw [behindMark, left, List.tail_cons, ← mark, ← left, mark,
          List.takeWhile_append_dropWhile]

/-- A comment with white space or a quote ends where it should. -/
theorem behindAttribute_of_loose (closed : greaterThan ∈ rest) (loose : isLoose rest = true) :
    behindAttribute rest = behindMark rest := by
  obtain ⟨body, unmarked, parts, body_loose⟩ := exists_body closed
  generalize behindMark rest = behind at parts
  have stops : body.dropWhile isWordByte ≠ [] := by
    rw [Ne, List.dropWhile_eq_nil_iff]
    intro inside
    rw [loose, eq_comm, List.any_eq_true] at body_loose
    obtain ⟨c, member, outside⟩ := body_loose
    simp [inside c member] at outside
  have word : rest.takeWhile isWordByte = body.takeWhile isWordByte := by
    rw [parts, List.takeWhile_append, if_neg]
    intro same
    have whole := List.takeWhile_append_dropWhile (p := isWordByte) (l := body)
    rw [(List.takeWhile_prefix isWordByte).eq_of_length same, List.append_right_eq_self] at whole
    exact stops whole
  have left : rest.dropWhile isWordByte =
      body.dropWhile isWordByte ++ greaterThan :: behind := by
    rw [parts, List.dropWhile_append, if_neg (by simpa using stops)]
  rw [behindAttribute, word, left, if_neg, behindMark_append]
  · exact fun member => unmarked ((List.dropWhile_sublist _).subset member)
  · intro last
    exact unmarked ((List.takeWhile_sublist _).subset (List.mem_of_getLast? last))

/-- Where the loop goes on behind a comment without white space or quotes depends on what is
glued to it. -/
theorem behindAttribute_of_tight (closed : greaterThan ∈ rest) (tight : isLoose rest = false) :
    behindAttribute rest =
      if (behindMark rest).takeWhile isWordByte = [] then behindMark rest
      else behindAttribute (behindMark rest) := by
  obtain ⟨body, unmarked, parts, body_tight⟩ := exists_body closed
  generalize behindMark rest = behind at parts
  have inside : ∀ c ∈ body, isWordByte c = true := by
    intro c member
    rw [tight, eq_comm, List.any_eq_false] at body_tight
    simpa using body_tight c member
  have mark : isWordByte greaterThan = true := rfl
  have word : rest.takeWhile isWordByte =
      body ++ greaterThan :: behind.takeWhile isWordByte := by
    rw [parts, List.takeWhile_append_of_pos inside, List.takeWhile_cons_of_pos mark]
  have left : rest.dropWhile isWordByte = behind.dropWhile isWordByte := by
    rw [parts, List.dropWhile_append_of_pos inside, List.dropWhile_cons_of_pos mark]
  rw [behindAttribute, behindAttribute, word, left]
  cases glued : behind.takeWhile isWordByte with
  | nil =>
      have whole := List.takeWhile_append_dropWhile (p := isWordByte) (l := behind)
      rw [glued, List.nil_append] at whole
      simp [whole]
  | cons c more => simp

/-- A `<` at the front of the text that is glued to a comment makes no difference. -/
theorem behindAttribute_lessThan (rest : Bytes) :
    behindAttribute (lessThan :: rest) = behindAttribute rest := by
  have word : isWordByte lessThan = true := rfl
  rw [behindAttribute, behindAttribute, List.takeWhile_cons_of_pos word,
    List.dropWhile_cons_of_pos word]
  cases rest.takeWhile isWordByte with
  | nil => simp [lessThan, greaterThan]
  | cons c more => simp

end Marks

/-! ## Words -/

section Words

variable {word behind : Bytes} {c : UInt8}

/-- A text ends in front of another one: there is nothing, or white space or a quote. -/
def AtBoundary (behind : Bytes) : Prop := ∀ c, behind.head? = some c → isWordByte c = false

theorem takeWhile_word (inside : ∀ c ∈ word, isWordByte c = true)
    (boundary : AtBoundary behind) :
    (word ++ behind).takeWhile isWordByte = word := by
  rw [List.takeWhile_append_of_pos inside]
  cases behind with
  | nil => simp
  | cons c rest => simp [boundary c rfl]

theorem dropWhile_word (inside : ∀ c ∈ word, isWordByte c = true)
    (boundary : AtBoundary behind) :
    (word ++ behind).dropWhile isWordByte = behind := by
  rw [List.dropWhile_append_of_pos inside]
  cases behind with
  | nil => simp
  | cons c rest => simp [boundary c rfl]

theorem atBoundary_dropWhile (s : Bytes) : AtBoundary (s.dropWhile isWordByte) := by
  intro c first
  cases left : s.dropWhile isWordByte with
  | nil => simp [left] at first
  | cons d rest =>
      rw [left, List.head?_cons, Option.some.injEq] at first
      exact first ▸ not_of_dropWhile left

theorem mem_word {s : Bytes} (member : c ∈ s.takeWhile isWordByte) : isWordByte c = true :=
  List.mem_takeWhile_imp member

/-- A byte that ends a word is white space or a quote, and kept as it is. -/
theorem atBoundary_strip {s : Bytes} (boundary : AtBoundary s) : AtBoundary (strip s) := by
  cases s with
  | nil =>
      rw [strip]
      exact boundary
  | cons c rest =>
      have outside := boundary c rfl
      have kept : strip (c :: rest) = c :: strip rest := by
        rw [strip]
        by_cases space : isspace c = true
        · rw [if_pos space]
        · have quote : c = dquote := by simpa [isWordByte, space] using outside
          rw [if_neg space, if_neg (by rw [quote]; decide), if_pos quote]
      rw [kept]
      intro d first
      rw [List.head?_cons, Option.some.injEq] at first
      exact first ▸ outside

/-- The bytes that a word can begin with. -/
structure StartsWord (c : UInt8) : Prop where
  noSpace : isspace c = false
  noEnd : atEnd c = false
  noQuote : c ≠ dquote
  noComment : c ≠ lessThan

theorem StartsWord.isWordByte (starts : StartsWord c) : isWordByte c = true := by
  simp [Config.isWordByte, starts.noSpace, starts.noQuote]

theorem tokens_word (starts : StartsWord c) (inside : ∀ d ∈ word, isWordByte d = true)
    (boundary : AtBoundary behind) :
    tokens (c :: word ++ behind) = (c :: word) :: tokens behind := by
  rw [List.cons_append, tokens_start starts.noSpace starts.noEnd, if_neg starts.noQuote,
    if_neg starts.noComment, takeWhile_word inside boundary, dropWhile_word inside boundary]

end Words

/-! ## The stripped line -/

section Strip

variable {rest : Bytes} {c : UInt8}

@[simp] theorem tokens_nil : tokens [] = [] := by
  rw [tokens]

theorem tokens_space (space : isspace c = true) : tokens (c :: rest) = tokens rest := by
  rw [tokens, if_pos space]

theorem tokens_atEnd (noSpace : isspace c = false) (ends : atEnd c = true) :
    tokens (c :: rest) = [] := by
  rw [tokens, if_neg (by simp [noSpace]), if_pos ends]

theorem tokens_quote : tokens (dquote :: rest) = [dquote] :: tokens rest := by
  rw [tokens_start rfl rfl, if_pos rfl]

theorem tokens_comment : tokens (lessThan :: rest) = tokens (behindAttribute rest) := by
  rw [tokens_start rfl rfl, if_neg (by decide), if_pos rfl]

/-- Behind a `<` that is not closed there are no tokens. -/
theorem tokens_open (unmarked : greaterThan ∉ rest) : tokens (lessThan :: rest) = [] := by
  rw [tokens_comment, behindAttribute_eq_nil unmarked, tokens_nil]

theorem tokens_strip_word (starts : StartsWord c) :
    tokens (c :: rest.takeWhile isWordByte ++ strip (rest.dropWhile isWordByte)) =
      (c :: rest.takeWhile isWordByte) :: tokens (strip (rest.dropWhile isWordByte)) :=
  tokens_word starts (fun _ member => mem_word member)
    (atBoundary_strip (atBoundary_dropWhile rest))

/-- A comment that nothing is glued to is skipped. -/
theorem tokens_closed (closed : greaterThan ∈ rest)
    (apart : isLoose rest = true ∨ isFree (behindMark rest) = true) :
    tokens (lessThan :: rest) = tokens (behindMark rest) := by
  rw [tokens_comment]
  cases loose : isLoose rest with
  | true => rw [behindAttribute_of_loose closed loose]
  | false =>
      have free : isFree (behindMark rest) = true := by simpa [loose] using apart
      rw [behindAttribute_of_tight closed loose]
      cases glued : behindMark rest with
      | nil => simp
      | cons c more =>
          by_cases inside : isWordByte c = true
          · have noSpace : isspace c = false := by
              cases space : isspace c with
              | false => rfl
              | true => simp [isWordByte, space] at inside
            rw [glued] at free
            rw [if_neg (by simp [inside])]
            by_cases opened : c = lessThan
            · rw [opened, behindAttribute_lessThan, tokens_comment]
            · have line : atEnd c = true ∧ greaterThan ∉ more := by
                simpa [isFree, inside, opened] using free
              have unmarked : greaterThan ∉ c :: more := by
                rw [List.mem_cons, not_or]
                refine ⟨fun same => ?_, line.2⟩
                rw [← same] at line
                exact absurd line.1 (by decide)
              rw [tokens_atEnd noSpace line.1, behindAttribute_eq_nil unmarked, tokens_nil]
          · rw [if_pos (by simp [inside])]

/-- The code skips the range comments of a line where no word is glued to one. -/
theorem tokens_strip (s : Bytes) (detached : isDetached s = true) :
    tokens (strip s) = tokens s := by
  induction s using strip.induct with
  | case1 => rw [strip]
  | case2 c rest space ih =>
      rw [isDetached, if_pos space] at detached
      rw [strip, if_pos space, tokens_space space, tokens_space space, ih detached]
  | case3 c rest space ends =>
      rw [strip, if_neg space, if_pos ends]
  | case4 rest space ends ih =>
      rw [isDetached, if_neg space, if_neg ends, if_pos rfl] at detached
      rw [strip, if_neg space, if_neg ends, if_pos rfl, tokens_quote, tokens_quote, ih detached]
  | case5 rest closed space ends quote ih =>
      rw [isDetached, if_neg space, if_neg ends, if_neg quote, if_pos rfl, if_pos closed,
        Bool.and_eq_true, Bool.or_eq_true] at detached
      rw [strip, if_neg space, if_neg ends, if_neg quote, if_pos rfl, if_pos closed,
        tokens_space rfl, ih detached.2, tokens_closed closed detached.1]
  | case6 rest opened space ends quote =>
      rw [strip, if_neg space, if_neg ends, if_neg quote, if_pos rfl, if_neg opened]
  | case7 c rest space ends quote comment ih =>
      rw [isDetached, if_neg space, if_neg ends, if_neg quote, if_neg comment] at detached
      rw [strip, if_neg space, if_neg ends, if_neg quote, if_neg comment,
        tokens_strip_word ⟨by simpa using space, by simpa using ends, quote, comment⟩,
        ih detached, tokens_start (by simpa using space) (by simpa using ends), if_neg quote,
        if_neg comment]

/-- The number of bytes of tokens. -/
def weight (tokens : List Bytes) : Nat := tokens.flatten.length

@[simp] theorem weight_nil : weight [] = 0 := rfl

@[simp] theorem weight_cons (token : Bytes) (tokens : List Bytes) :
    weight (token :: tokens) = token.length + weight tokens := by
  simp [weight]

/-- What the code reads of a line, from its front or from behind a `>` on, against the tokens of
the stripped line. -/
structure Bounded (s : Bytes) : Prop where
  le : weight (tokens s) ≤ weight (tokens (strip s))
  detached : weight (tokens s) = weight (tokens (strip s)) → isDetached s = true
  behindMark_le : weight (tokens (behindMark s)) ≤ weight (tokens (strip s))
  glued_lt : ∀ c rest, s = c :: rest → StartsWord c →
    weight (tokens (behindAttribute s)) < weight (tokens (strip s))

/-- A word that is glued to a comment is lost, and what is read behind it is no more than what
follows the word. -/
theorem tokens_glued_lt (closed : greaterThan ∈ rest) (tight : isLoose rest = false)
    (glued : isFree (behindMark rest) = false)
    (unmarked : greaterThan ∉ lineComment (behindMark rest))
    (bounded : Bounded (behindMark rest)) :
    weight (tokens (lessThan :: rest)) < weight (tokens (strip (behindMark rest))) := by
  rw [tokens_comment, behindAttribute_of_tight closed tight]
  cases left : behindMark rest with
  | nil =>
      rw [left] at glued
      cases glued
  | cons c more =>
      rw [left] at glued unmarked
      obtain ⟨inside, noComment, noLine⟩ :
          isWordByte c = true ∧ c ≠ lessThan ∧ (atEnd c = true → greaterThan ∈ more) := by
        simpa [isFree] using glued
      obtain ⟨noSpace, noQuote⟩ : isspace c = false ∧ c ≠ dquote := by
        simpa [isWordByte] using inside
      have noEnd : atEnd c = false := by
        cases ends : atEnd c with
        | false => rfl
        | true =>
            rw [lineComment, if_neg (by simp [noSpace]), if_pos ends] at unmarked
            exact absurd (List.mem_cons_of_mem _ (noLine ends)) unmarked
      rw [if_neg (by simp [inside])]
      exact left ▸ bounded.glued_lt c more left ⟨noSpace, noEnd, noQuote, noComment⟩

/-- From the middle of a word on there is at most the rest of the word and what follows it. -/
theorem tokens_word_le {word behind : Bytes} (inside : ∀ c ∈ word, isWordByte c = true)
    (boundary : AtBoundary behind) (bounded : Bounded behind) :
    weight (tokens (word ++ behind)) ≤ word.length + weight (tokens (strip behind)) := by
  cases word with
  | nil => simpa using bounded.le
  | cons c word =>
      obtain ⟨noSpace, noQuote⟩ : isspace c = false ∧ c ≠ dquote := by
        simpa [isWordByte] using inside c (List.mem_cons_self ..)
      have insideWord : ∀ d ∈ word, isWordByte d = true :=
        fun d member => inside d (List.mem_cons_of_mem _ member)
      rw [List.cons_append]
      by_cases ends : atEnd c = true
      · rw [tokens_atEnd noSpace ends]
        exact Nat.zero_le _
      by_cases comment : c = lessThan
      · rw [comment, tokens_comment, behindAttribute, takeWhile_word insideWord boundary,
          dropWhile_word insideWord boundary]
        split
        next => exact bounded.le.trans (Nat.le_add_left _ _)
        next => exact bounded.behindMark_le.trans (Nat.le_add_left _ _)
      · rw [← List.cons_append,
          tokens_word ⟨noSpace, by simpa using ends, noQuote, comment⟩ insideWord boundary,
          weight_cons]
        exact Nat.add_le_add_left bounded.le _

/-- A word is read as it is; from behind a `>` in it, or behind the next one, less is read. -/
theorem bounded_word (starts : StartsWord c) (bounded : Bounded (rest.dropWhile isWordByte)) :
    Bounded (c :: rest) := by
  have stripped : tokens (strip (c :: rest)) =
      (c :: rest.takeWhile isWordByte) :: tokens (strip (rest.dropWhile isWordByte)) := by
    rw [strip, if_neg (by simp [starts.noSpace]), if_neg (by simp [starts.noEnd]),
      if_neg starts.noQuote, if_neg starts.noComment, tokens_strip_word starts]
  have read : tokens (c :: rest) =
      (c :: rest.takeWhile isWordByte) :: tokens (rest.dropWhile isWordByte) := by
    rw [tokens_start starts.noSpace starts.noEnd, if_neg starts.noQuote, if_neg starts.noComment]
  have whole : c :: rest = (c :: rest.takeWhile isWordByte) ++ rest.dropWhile isWordByte := by
    rw [List.cons_append, List.takeWhile_append_dropWhile]
  have inside : ∀ d ∈ c :: rest.takeWhile isWordByte, isWordByte d = true := by
    intro d member
    cases List.mem_cons.mp member with
    | inl same => exact same ▸ starts.isWordByte
    | inr member => exact mem_word member
  have behind_lt : weight (tokens (strip (rest.dropWhile isWordByte))) <
      weight (tokens (strip (c :: rest))) := by
    rw [stripped, weight_cons, List.length_cons]
    exact Nat.lt_add_of_pos_left (Nat.succ_pos _)
  refine ⟨?_, ?_, ?_, ?_⟩
  · rw [stripped, read, weight_cons, weight_cons]
    exact Nat.add_le_add_left bounded.le _
  · intro same
    rw [stripped, read, weight_cons, weight_cons, Nat.add_left_cancel_iff] at same
    rw [isDetached, if_neg (by simp [starts.noSpace]), if_neg (by simp [starts.noEnd]),
      if_neg starts.noQuote, if_neg starts.noComment]
    exact bounded.detached same
  · by_cases marked : greaterThan ∈ c :: rest.takeWhile isWordByte
    · obtain ⟨body, unmarked, parts, -⟩ := exists_body marked
      generalize behindMark (c :: rest.takeWhile isWordByte) = behind at parts
      have position : c :: rest =
          body ++ greaterThan :: (behind ++ rest.dropWhile isWordByte) := by
        rw [whole, parts]
        simp
      have insideBehind : ∀ d ∈ behind, isWordByte d = true := by
        intro d member
        exact inside d (by rw [parts]; simp [member])
      have short : behind.length ≤ (c :: rest.takeWhile isWordByte).length := by
        rw [parts, List.length_append, List.length_cons]
        omega
      rw [stripped, weight_cons, position, behindMark_append body unmarked]
      exact (tokens_word_le insideBehind (atBoundary_dropWhile rest) bounded).trans
        (Nat.add_le_add_right short _)
    · rw [whole, behindMark_append_of_not_mem marked, ← whole]
      exact bounded.behindMark_le.trans behind_lt.le
  · rintro d more same -
    rw [behindAttribute, whole, takeWhile_word inside (atBoundary_dropWhile rest),
      dropWhile_word inside (atBoundary_dropWhile rest), ← whole]
    split
    next => exact bounded.le.trans_lt behind_lt
    next => exact bounded.behindMark_le.trans_lt behind_lt

/-- Where the line comment has no `>`, the code reads no more than the tokens of the stripped
line. -/
theorem bounded_of_lineComment (s : Bytes) (unmarked : greaterThan ∉ lineComment s) :
    Bounded s := by
  induction s using strip.induct with
  | case1 => exact ⟨by simp [strip], fun _ => by rw [isDetached], by simp [strip, behindMark],
      fun c rest same => by cases same⟩
  | case2 c rest space ih =>
      have noMark : c ≠ greaterThan := fun same => by simp [same, isspace, greaterThan] at space
      rw [lineComment, if_pos space] at unmarked
      have bounded := ih unmarked
      have stripped : tokens (strip (c :: rest)) = tokens (strip rest) := by
        rw [strip, if_pos space, tokens_space space]
      have mark : behindMark (c :: rest) = behindMark rest := by simp [behindMark, noMark]
      refine ⟨?_, ?_, ?_, ?_⟩
      · rw [stripped, tokens_space space]
        exact bounded.le
      · rw [stripped, tokens_space space, isDetached, if_pos space]
        exact bounded.detached
      · rw [stripped, mark]
        exact bounded.behindMark_le
      · rintro d more same starts
        cases same
        simp [starts.noSpace] at space
  | case3 c rest space ends =>
      rw [lineComment, if_neg space, if_pos ends] at unmarked
      refine ⟨?_, ?_, ?_, ?_⟩
      · rw [tokens_atEnd (by simpa using space) ends]
        exact Nat.zero_le _
      · intro
        rw [isDetached, if_neg space, if_pos ends]
      · rw [behindMark_eq_nil unmarked, tokens_nil]
        exact Nat.zero_le _
      · rintro d more same starts
        cases same
        simp [starts.noEnd] at ends
  | case4 rest space ends ih =>
      rw [lineComment, if_neg space, if_neg ends, if_pos rfl] at unmarked
      have bounded := ih unmarked
      have stripped : tokens (strip (dquote :: rest)) = [dquote] :: tokens (strip rest) := by
        rw [strip, if_neg space, if_neg ends, if_pos rfl, tokens_quote]
      have mark : behindMark (dquote :: rest) = behindMark rest := rfl
      refine ⟨?_, ?_, ?_, ?_⟩
      · rw [stripped, tokens_quote, weight_cons, weight_cons]
        exact Nat.add_le_add_left bounded.le _
      · intro same
        rw [stripped, tokens_quote, weight_cons, weight_cons, Nat.add_left_cancel_iff] at same
        rw [isDetached, if_neg space, if_neg ends, if_pos rfl]
        exact bounded.detached same
      · rw [stripped, mark, weight_cons]
        exact bounded.behindMark_le.trans (Nat.le_add_left _ _)
      · rintro d more same starts
        cases same
        exact absurd rfl starts.noQuote
  | case5 rest closed space ends quote ih =>
      rw [lineComment, if_neg space, if_neg ends, if_neg quote, if_pos rfl, if_pos closed]
        at unmarked
      have bounded := ih unmarked
      have stripped : tokens (strip (lessThan :: rest)) = tokens (strip (behindMark rest)) := by
        rw [strip, if_neg space, if_neg ends, if_neg quote, if_pos rfl, if_pos closed,
          tokens_space rfl]
      have mark : behindMark (lessThan :: rest) = behindMark rest := rfl
      have detached : isDetached (lessThan :: rest) =
          ((isLoose rest || isFree (behindMark rest)) && isDetached (behindMark rest)) := by
        rw [isDetached, if_neg space, if_neg ends, if_neg quote, if_pos rfl, if_pos closed]
      have noWord : ∀ c more, lessThan :: rest = c :: more → ¬ StartsWord c := by
        rintro d more same starts
        cases same
        exact absurd rfl starts.noComment
      cases apart : isLoose rest || isFree (behindMark rest) with
      | true =>
          have read := tokens_closed closed (by simpa using apart)
          refine ⟨?_, ?_, ?_, fun c more same starts => absurd starts (noWord c more same)⟩
          · rw [stripped, read]
            exact bounded.le
          · rw [stripped, read, detached, apart, Bool.true_and]
            exact bounded.detached
          · rw [stripped, mark]
            exact bounded.le
      | false =>
          rw [Bool.or_eq_false_iff] at apart
          have less := tokens_glued_lt closed apart.1 apart.2 unmarked bounded
          refine ⟨?_, ?_, ?_, fun c more same starts => absurd starts (noWord c more same)⟩
          · rw [stripped]
            exact less.le
          · rw [stripped]
            exact fun same => absurd same less.ne
          · rw [stripped, mark]
            exact bounded.le
  | case6 rest opened space ends quote =>
      refine ⟨?_, ?_, ?_, ?_⟩
      · rw [tokens_open opened]
        exact Nat.zero_le _
      · intro
        rw [isDetached, if_neg space, if_neg ends, if_neg quote, if_pos rfl, if_neg opened]
      · rw [behindMark_eq_nil (by simpa [lessThan, greaterThan] using opened), tokens_nil]
        exact Nat.zero_le _
      · rintro d more same starts
        cases same
        exact absurd rfl starts.noComment
  | case7 c rest space ends quote comment ih =>
      rw [lineComment, if_neg space, if_neg ends, if_neg quote, if_neg comment] at unmarked
      exact bounded_word ⟨by simpa using space, by simpa using ends, quote, comment⟩
        (ih unmarked)

end Strip

/-! ## Transparent comments -/

section Transparent

variable {s line : Bytes} {c : UInt8} {rest : Bytes}

/-- The range comments of a line make no difference, and the result is `NULL` or has a token. -/
def Transparent (line : Bytes) : Prop :=
  ∀ tail, tokenizeString (line ++ 0 :: tail) = tokenizeString (strip line ++ 0 :: tail) ∧
    tokenizeString (line ++ 0 :: tail) ≠ some (some [])

/-- No word is glued to a comment, and a line that begins with a comment has a token behind. -/
def commentsApart (line : Bytes) : Bool :=
  isDetached line && (!beginsComment line || beginsToken (strip line))

theorem not_mem_strip (text : 0 ∉ s) : 0 ∉ strip s := by
  induction s using strip.induct with
  | case1 => simp [strip]
  | case2 c rest space ih =>
      rw [List.mem_cons, not_or] at text
      rw [strip, if_pos space, List.mem_cons, not_or]
      exact ⟨text.1, ih text.2⟩
  | case3 c rest space ends => rwa [strip, if_neg space, if_pos ends]
  | case4 rest space ends ih =>
      rw [List.mem_cons, not_or] at text
      rw [strip, if_neg space, if_neg ends, if_pos rfl, List.mem_cons, not_or]
      exact ⟨text.1, ih text.2⟩
  | case5 rest closed space ends quote ih =>
      rw [List.mem_cons, not_or] at text
      rw [strip, if_neg space, if_neg ends, if_neg quote, if_pos rfl, if_pos closed,
        List.mem_cons, not_or]
      exact ⟨by decide, ih (not_mem_behindMark text.2)⟩
  | case6 rest opened space ends quote =>
      rwa [strip, if_neg space, if_neg ends, if_neg quote, if_pos rfl, if_neg opened]
  | case7 c rest space ends quote comment ih =>
      rw [List.mem_cons, not_or] at text
      rw [strip, if_neg space, if_neg ends, if_neg quote, if_neg comment, List.mem_append, not_or,
        List.mem_cons, not_or]
      exact ⟨⟨text.1, fun member => text.2 ((List.takeWhile_sublist _).subset member)⟩,
        ih (not_mem_dropWhile text.2 _)⟩

theorem beginsToken_space (space : isspace c = true) :
    beginsToken (c :: rest) = beginsToken rest := by
  rw [beginsToken, List.dropWhile_cons_of_pos space, beginsToken]

theorem beginsComment_space (space : isspace c = true) :
    beginsComment (c :: rest) = beginsComment rest := by
  rw [beginsComment, List.dropWhile_cons_of_pos space, beginsComment]

theorem beginsToken_start (noSpace : isspace c = false) (noEnd : atEnd c = false)
    (noComment : c ≠ lessThan) : beginsToken (c :: rest) = true := by
  rw [beginsToken, List.dropWhile_cons_of_neg (by simp [noSpace])]
  simp [noEnd, noComment]

theorem beginsComment_start (noSpace : isspace c = false) :
    beginsComment (c :: rest) = decide (c = lessThan) := by
  rw [beginsComment, List.dropWhile_cons_of_neg (by simp [noSpace])]
  simp

/-- The result of `tokenize_string` is no `NULL` where a token or a comment begins. -/
theorem lineTokens_eq (s : Bytes) :
    lineTokens s = if beginsToken s ∨ beginsComment s then some (tokens s) else none := by
  rw [lineTokens, beginsToken, beginsComment]
  cases left : s.dropWhile isspace with
  | nil => simp
  | cons c rest =>
      by_cases comment : c = lessThan
      · simp [comment, atEnd, lessThan, exclamation, hash]
      · cases ends : atEnd c with
        | true => simp [comment, ends]
        | false => simp [comment, ends]

theorem tokens_ne_nil (begins : beginsToken s = true) : tokens s ≠ [] := by
  rw [← tokens_dropWhile]
  rw [beginsToken] at begins
  cases left : s.dropWhile isspace with
  | nil => simp [left] at begins
  | cons c rest =>
      rw [left] at begins
      obtain ⟨noEnd, noComment⟩ : atEnd c = false ∧ c ≠ lessThan := by simpa using begins
      rw [tokens_start (not_of_dropWhile left) noEnd]
      split
      next => simp
      next => simp

theorem tokens_eq_nil (noToken : beginsToken s = false) (noComment : beginsComment s = false) :
    tokens s = [] := by
  rw [← tokens_dropWhile]
  rw [beginsToken] at noToken
  rw [beginsComment] at noComment
  cases left : s.dropWhile isspace with
  | nil => simp
  | cons c rest =>
      rw [left] at noToken noComment
      have noStart : c ≠ lessThan := by simpa using noComment
      have ends : atEnd c = true := by simpa [noStart] using noToken
      exact tokens_atEnd (not_of_dropWhile left) ends

/-- The only `<` that a stripped line can begin with is one that is not closed. -/
theorem beginsToken_strip (token : tokens (strip s) ≠ []) : beginsToken (strip s) = true := by
  induction s using strip.induct with
  | case1 => simp [strip] at token
  | case2 c rest space ih =>
      rw [strip, if_pos space] at token ⊢
      rw [tokens_space space] at token
      rw [beginsToken_space space, ih token]
  | case3 c rest space ends =>
      rw [strip, if_neg space, if_pos ends, tokens_atEnd (by simpa using space) ends] at token
      exact absurd rfl token
  | case4 rest space ends ih =>
      rw [strip, if_neg space, if_neg ends, if_pos rfl]
      exact beginsToken_start rfl rfl (by decide)
  | case5 rest closed space ends quote ih =>
      rw [strip, if_neg space, if_neg ends, if_neg quote, if_pos rfl, if_pos closed] at token ⊢
      rw [tokens_space rfl] at token
      rw [beginsToken_space rfl, ih token]
  | case6 rest opened space ends quote =>
      rw [strip, if_neg space, if_neg ends, if_neg quote, if_pos rfl, if_neg opened,
        tokens_open opened] at token
      exact absurd rfl token
  | case7 c rest space ends quote comment ih =>
      rw [strip, if_neg space, if_neg ends, if_neg quote, if_neg comment, List.cons_append]
      exact beginsToken_start (by simpa using space) (by simpa using ends) comment

/-- A line that does not begin with a comment begins as the stripped line does. -/
theorem begins_strip (noComment : beginsComment s = false) :
    beginsToken (strip s) = beginsToken s ∧ beginsComment (strip s) = false := by
  induction s using strip.induct with
  | case1 => exact ⟨by rw [strip], by rw [strip, noComment]⟩
  | case2 c rest space ih =>
      rw [beginsComment_space space] at noComment
      rw [strip, if_pos space, beginsToken_space space, beginsToken_space space,
        beginsComment_space space]
      exact ih noComment
  | case3 c rest space ends =>
      rw [strip, if_neg space, if_pos ends]
      exact ⟨rfl, noComment⟩
  | case4 rest space ends ih =>
      rw [strip, if_neg space, if_neg ends, if_pos rfl]
      exact ⟨rfl, rfl⟩
  | case5 rest closed space ends quote ih => cases noComment
  | case6 rest opened space ends quote => cases noComment
  | case7 c rest space ends quote comment ih =>
      have noSpace : isspace c = false := by simpa using space
      have noEnd : atEnd c = false := by simpa using ends
      rw [strip, if_neg space, if_neg ends, if_neg quote, if_neg comment, List.cons_append,
        beginsToken_start noSpace noEnd comment, beginsToken_start noSpace noEnd comment,
        beginsComment_start noSpace]
      simp [comment]

/-- Lines with the same result have the same tokens. -/
theorem tokens_eq_of_lineTokens {left right : Bytes} (same : lineTokens left = lineTokens right) :
    tokens left = tokens right := by
  have none_of {s : Bytes} (nothing : lineTokens s = none) : tokens s = [] := by
    rw [lineTokens_eq, ite_eq_right_iff] at nothing
    by_cases begins : beginsToken s ∨ beginsComment s
    · cases nothing begins
    · rw [not_or] at begins
      exact tokens_eq_nil (by simpa using begins.1) (by simpa using begins.2)
  have some_of {s : Bytes} {found : List Bytes} (result : lineTokens s = some found) :
      tokens s = found := by
    rw [lineTokens_eq] at result
    split at result
    next => exact Option.some.inj result
    next => cases result
  cases result : lineTokens left with
  | none => rw [none_of result, none_of (same.symm.trans result)]
  | some found => rw [some_of result, some_of (same.symm.trans result)]

theorem lineTokens_strip (apart : commentsApart line = true) :
    lineTokens line = lineTokens (strip line) ∧ lineTokens line ≠ some [] := by
  rw [commentsApart, Bool.and_eq_true, Bool.or_eq_true, Bool.not_eq_true'] at apart
  have same := tokens_strip line apart.1
  rw [lineTokens_eq, lineTokens_eq]
  cases comment : beginsComment line with
  | true =>
      have token : beginsToken (strip line) = true := by simpa [comment] using apart.2
      have nonempty := tokens_ne_nil token
      rw [same] at nonempty
      simp [token, same, nonempty]
  | false =>
      have begins := begins_strip comment
      cases token : beginsToken line with
      | true => simp [begins.1, token, same, tokens_ne_nil token]
      | false => simp [begins.1, begins.2, token]

theorem commentsApart_of_lineTokens (unmarked : greaterThan ∉ lineComment line)
    (same : lineTokens line = lineTokens (strip line)) (nonempty : lineTokens line ≠ some []) :
    commentsApart line = true := by
  have read := tokens_eq_of_lineTokens same
  rw [lineTokens_eq] at nonempty
  rw [commentsApart, Bool.and_eq_true, Bool.or_eq_true, Bool.not_eq_true']
  refine ⟨(bounded_of_lineComment line unmarked).detached (by rw [read]), ?_⟩
  cases comment : beginsComment line with
  | false => exact Or.inl rfl
  | true =>
      right
      apply beginsToken_strip
      rw [← read]
      simpa [comment] using nonempty

/-- **Transparent range comments.** They are where no word is glued to one and no line has nothing
else; and nowhere else, but for lines where the line comment has a `>`. -/
theorem transparent_iff (line : Bytes) (text : 0 ∉ line) :
    (commentsApart line = true → Transparent line) ∧
      (greaterThan ∉ lineComment line → (Transparent line ↔ commentsApart line = true)) := by
  have promise : Transparent line ↔
      lineTokens line = lineTokens (strip line) ∧ lineTokens line ≠ some [] := by
    rw [Transparent]
    simp only [tokenizeString_line text, tokenizeString_line (not_mem_strip text)]
    simp
  rw [promise]
  exact ⟨lineTokens_strip, fun unmarked =>
    ⟨fun kept => commentsApart_of_lineTokens unmarked kept.1 kept.2, lineTokens_strip⟩⟩

theorem transparent_iff_init :
    Transparent (ascii "<init> pktpool_size 524287 ! mbufs") ∧
      (Transparent (ascii "<init> pktpool_size 524287 ! mbufs") ↔
        commentsApart (ascii "<init> pktpool_size 524287 ! mbufs") = true) :=
  have both := transparent_iff (ascii "<init> pktpool_size 524287 ! mbufs") (by decide +kernel)
  ⟨both.1 (by decide +kernel), both.2 (by decide +kernel)⟩

/-- A value that is glued to a comment is lost, and a line with nothing but a comment gives a
vector without tokens. -/
theorem glued_value_lost :
    tokenizeString (ascii "type <x>master" ++ [0]) = some (some [ascii "type"]) ∧
      tokenizeString (ascii "<init>" ++ [0]) = some (some []) ∧
      ¬ Transparent (ascii "type <x>master") ∧ ¬ Transparent (ascii "<init>") := by
  refine ⟨by decide +kernel, by decide +kernel, fun kept => ?_, fun kept => ?_⟩
  · have differ : tokenizeString (ascii "type <x>master" ++ [0]) ≠
        tokenizeString (strip (ascii "type <x>master") ++ [0]) := by
      decide +kernel
    exact differ (kept []).1
  · have empty : tokenizeString (ascii "<init>" ++ [0]) = some (some []) := by
      decide +kernel
    exact (kept []).2 empty

end Transparent

end NetDefender.Config
