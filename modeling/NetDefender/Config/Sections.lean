import NetDefender.Config.Comments
import NetDefender.Config.Guarding

/-!
# Sections

A configuration as the sections that it is made of, apart from the way in which it is written
down: a text lays it out with any white space, blank lines and comments.  Every layout makes
`process_stream` call the same handlers.
-/

namespace NetDefender.Config

open CString

/-- A line, or a section with a line that opens it and what is inside. -/
inductive Entry where
  | line (tokens : List Bytes)
  | block (tokens : List Bytes) (body : List Entry)

/-- The lines lay out the entries. -/
inductive Layout : List Entry → List Bytes → Prop where
  | nil : Layout [] []
  | blank {entries : List Entry} {line : Bytes} {lines : List Bytes}
      (none : lineTokens line = none) (more : Layout entries lines) :
      Layout entries (line :: lines)
  | line {entries : List Entry} {tokens : List Bytes} {line : Bytes} {lines : List Bytes}
      (same : lineTokens line = some tokens) (more : Layout entries lines) :
      Layout (.line tokens :: entries) (line :: lines)
  | block {body entries : List Entry} {tokens args : List Bytes} {opener closer : Bytes}
      {inner lines : List Bytes} (opens : lineTokens opener = some tokens)
      (inside : Layout body inner) (closes : lineTokens closer = some (CFG_FILE_EOB :: args))
      (more : Layout entries lines) :
      Layout (.block tokens body :: entries) (opener :: inner ++ closer :: lines)

/-! ## Meaning -/

mutual

/-- The calls that an entry stands for at a level; `none` if it is not one of the level. -/
def Entry.calls? (level : Level) : Entry → Option (List Call)
  | .line [] => none
  | .line (str :: args) =>
      if str = CFG_FILE_EOB then none
      else
        match level.find str with
        | none => some []
        | some (⟨_, handler, none⟩, index) =>
            some (if handler then [⟨level.path ++ [index], str :: args⟩] else [])
        | some (⟨_, _, some _⟩, _) => none
  | .block [] _ => none
  | .block (str :: args) body =>
      if str = CFG_FILE_EOB then none
      else
        match level.find str with
        | some (⟨_, handler, some sub⟩, index) =>
            (sectionCalls ⟨level.path ++ [index], sub⟩ body).map fun inner =>
              (if handler then [⟨level.path ++ [index], str :: args⟩] else []) ++ inner
        | _ => none

/-- The calls that the entries of a section stand for. -/
def sectionCalls (level : Level) : List Entry → Option (List Call)
  | [] => some []
  | entry :: entries => do
      let called ← entry.calls? level
      let later ← sectionCalls level entries
      return called ++ later

end

section Meaning

variable {level : Level} {entry : Entry} {entries more : List Entry} {called later : List Call}

@[simp] theorem sectionCalls_nil : sectionCalls level [] = some [] := rfl

theorem sectionCalls_cons (first : entry.calls? level = some called)
    (rest : sectionCalls level entries = some later) :
    sectionCalls level (entry :: entries) = some (called ++ later) := by
  rw [sectionCalls, first, rest]
  rfl

theorem sectionCalls_of_cons (stand : sectionCalls level (entry :: entries) = some called) :
    ∃ first rest, entry.calls? level = some first ∧ sectionCalls level entries = some rest ∧
      called = first ++ rest := by
  rw [sectionCalls] at stand
  obtain ⟨first, one, stand⟩ := Option.bind_eq_some_iff.mp stand
  obtain ⟨rest, others, same⟩ := Option.bind_eq_some_iff.mp stand
  cases same
  exact ⟨first, rest, one, others, rfl⟩

theorem sectionCalls_append (first : sectionCalls level entries = some called)
    (rest : sectionCalls level more = some later) :
    sectionCalls level (entries ++ more) = some (called ++ later) := by
  induction entries generalizing called with
  | nil =>
      cases first
      exact rest
  | cons entry entries ih =>
      obtain ⟨begun, middle, one, others, rfl⟩ := sectionCalls_of_cons first
      rw [List.cons_append, List.append_assoc]
      exact sectionCalls_cons one (ih others)

/-- The entries for a list of things, with the calls of each. -/
theorem sectionCalls_map {α : Type} {items : List α} {entryOf : α → Entry}
    {callsOf : α → List Call} (each : ∀ item ∈ items, (entryOf item).calls? level =
      some (callsOf item)) :
    sectionCalls level (items.map entryOf) = some (items.flatMap callsOf) := by
  induction items with
  | nil => rfl
  | cons item items ih =>
      rw [List.map_cons, List.flatMap_cons]
      exact sectionCalls_cons (each item (List.mem_cons_self ..))
        (ih fun other member => each other (List.mem_cons_of_mem _ member))

end Meaning

/-! ## Reading -/

/-- A line that fits the buffer and names no other file. -/
structure IsConfLine (line : Bytes) : Prop where
  isLine : IsLine line
  readable : Readable line
  plain : includesFile line = false

instance (line : Bytes) : Decidable (IsConfLine line) :=
  decidable_of_iff (IsLine line ∧ Readable line ∧ includesFile line = false)
    ⟨fun ⟨isLine, readable, plain⟩ => ⟨isLine, readable, plain⟩,
      fun line => ⟨line.isLine, line.readable, line.plain⟩⟩

section Reading

variable {readIncluded : Level → Bytes → Option (List Call)} {level : Level} {below : List Level}
  {entries : List Entry} {lines : List Bytes} {called : List Call}

/-- What the tokens of a line do. -/
def receiveTokens (level : Level) (below : List Level) (buf : Bytes) :
    Option (List Bytes) → Option (List Event × List Level)
  | none => some ([.line buf], level :: below)
  | some [] => none
  | some (str :: args) =>
      if str = CFG_FILE_EOB ∧ 0 < level.path.length then some ([.line buf], below)
      else
        match level.find str with
        | none => some ([.line buf], level :: below)
        | some (keyword, index) =>
            let place := level.path ++ [index]
            let called := keyword.events place (str :: args)
            match keyword.sub with
            | none => some (.line buf :: called, level :: below)
            | some sub => some (.line buf :: called, ⟨place, sub⟩ :: level :: below)

theorem runLine_tokens {line : Bytes} (isLine : IsConfLine line) :
    runLine readIncluded (level :: below) line =
      receiveTokens level below (buffer line) (lineTokens line) := by
  rw [runLine_readable isLine.readable isLine.plain, receive,
    tokenizeString_readable isLine.readable]
  cases lineTokens line with
  | none => rfl
  | some tokens => cases tokens <;> rfl

/-- A line with a keyword. -/
theorem line_leads {tokens : List Bytes} {buf : Bytes}
    (means : (Entry.line tokens).calls? level = some called) :
    ∃ events, receiveTokens level below buf (some tokens) = some (events, level :: below) ∧
      calls events = called := by
  cases tokens with
  | nil => cases means
  | cons str args =>
      rw [Entry.calls?] at means
      rw [receiveTokens]
      split at means
      next => cases means
      next other =>
        rw [if_neg fun brace => other brace.1]
        split at means
        next unknown =>
          cases means
          rw [unknown]
          exact ⟨_, rfl, rfl⟩
        next handler index found =>
          cases means
          rw [found]
          exact ⟨_, rfl, calls_events ..⟩
        next => cases means

/-- A line that opens a section. -/
theorem block_leads {tokens : List Bytes} {body : List Entry} {buf : Bytes}
    (means : (Entry.block tokens body).calls? level = some called) :
    ∃ events inside within, receiveTokens level below buf (some tokens) =
        some (events, inside :: level :: below) ∧ 0 < inside.path.length ∧
      sectionCalls inside body = some within ∧ called = calls events ++ within := by
  cases tokens with
  | nil => cases means
  | cons str args =>
      rw [Entry.calls?] at means
      rw [receiveTokens]
      split at means
      next => cases means
      next other =>
        rw [if_neg fun brace => other brace.1]
        split at means
        next handler sub index found =>
          obtain ⟨within, body, rfl⟩ := Option.map_eq_some_iff.mp means
          rw [found]
          refine ⟨_, _, within, rfl, by simp, body, ?_⟩
          rw [calls_line, calls_events]
        next => cases means

/-- The lines of a layout lead back to the level that they begin at. -/
def Returns (readIncluded : Level → Bytes → Option (List Call)) (level : Level)
    (below : List Level) (lines : List Bytes) (called : List Call) : Prop :=
  ∃ events, runLines readIncluded (level :: below) lines = some (events, level :: below) ∧
    calls events = called

theorem Returns.nil : Returns readIncluded level below [] [] := ⟨[], rfl, rfl⟩

theorem Returns.cons {line : Bytes} {events : List Event} {later : List Call}
    (first : runLine readIncluded (level :: below) line = some (events, level :: below))
    (rest : Returns readIncluded level below lines later) :
    Returns readIncluded level below (line :: lines) (calls events ++ later) := by
  obtain ⟨others, ran, rfl⟩ := rest
  refine ⟨events ++ others, ?_, calls_append ..⟩
  rw [runLines_cons, first, Option.bind_some, ran]
  rfl

/-- A line that opens a section, the section, the line that closes it, and what comes behind. -/
theorem Returns.block {opener closer : Bytes} {inner : List Bytes} {inside : Level}
    {opening closing : List Event} {within later : List Call}
    (opens : runLine readIncluded (level :: below) opener =
      some (opening, inside :: level :: below))
    (body : Returns readIncluded inside (level :: below) inner within)
    (closes : runLine readIncluded (inside :: level :: below) closer =
      some (closing, level :: below))
    (silent : calls closing = []) (rest : Returns readIncluded level below lines later) :
    Returns readIncluded level below (opener :: inner ++ closer :: lines)
      (calls opening ++ within ++ later) := by
  obtain ⟨middle, ranBody, rfl⟩ := body
  obtain ⟨others, ran, rfl⟩ := rest
  refine ⟨opening ++ (middle ++ (closing ++ others)), ?_, ?_⟩
  · rw [List.cons_append, runLines_cons, opens, Option.bind_some, runLines_append, ranBody,
      Option.bind_some, runLines_cons, closes, Option.bind_some, ran]
    rfl
  · rw [calls_append, calls_append, calls_append, silent, List.nil_append, List.append_assoc]

/-- **Every layout.**  Laid out in whatever way, the entries of a section make the calls that they
stand for, and lead back to the level that they are read at. -/
theorem layout_returns (layout : Layout entries lines)
    (areLines : ∀ line ∈ lines, IsConfLine line)
    (stand : sectionCalls level entries = some called) :
    Returns readIncluded level below lines called := by
  induction layout generalizing level below called with
  | nil =>
      cases stand
      exact Returns.nil
  | @blank _ line _ none _ ih =>
      obtain ⟨first, others⟩ := List.forall_mem_cons.mp areLines
      have leads : runLine readIncluded (level :: below) line =
          some ([.line (buffer line)], level :: below) := by
        rw [runLine_tokens first, none]
        rfl
      exact Returns.cons leads (ih others stand)
  | line same _ ih =>
      obtain ⟨first, others⟩ := List.forall_mem_cons.mp areLines
      obtain ⟨begun, later, means, rest, rfl⟩ := sectionCalls_of_cons stand
      obtain ⟨events, leads, rfl⟩ := line_leads means
      refine Returns.cons ?_ (ih others rest)
      rw [runLine_tokens first, same]
      exact leads
  | @block _ _ _ _ _ closer _ _ opens _ closes _ ihBody ih =>
      obtain ⟨first, others⟩ := List.forall_mem_cons.mp areLines
      obtain ⟨inner, behind⟩ := List.forall_mem_append.mp others
      obtain ⟨last, after⟩ := List.forall_mem_cons.mp behind
      obtain ⟨begun, later, means, rest, rfl⟩ := sectionCalls_of_cons stand
      obtain ⟨events, inside, within, leads, nested, body, rfl⟩ := block_leads means
      have ends : runLine readIncluded (inside :: level :: below) closer =
          some ([.line (buffer closer)], level :: below) := by
        rw [runLine_tokens last, closes, receiveTokens, if_pos ⟨rfl, nested⟩]
      refine Returns.block ?_ (ihBody inner body) ends rfl (ih after rest)
      rw [runLine_tokens first, opens]
      exact leads

/-- A layout as the whole of a stream. -/
theorem readStream_layout (layout : Layout entries lines)
    (areLines : ∀ line ∈ lines, IsConfLine line)
    (stand : sectionCalls level entries = some called) :
    (readStream readIncluded level (linesText lines)).map calls = some called := by
  have cut := pieces_linesText (fun line member => (areLines line member).isLine)
    fun line member => (areLines line member).readable.fits
  have returns : Returns readIncluded level [] lines called :=
    layout_returns layout areLines stand
  obtain ⟨events, ran, rfl⟩ := returns
  rw [readStream_run, run_pieces, cut, ran, Option.bind_some]
  simp [runLast, checkInclude_nil]

end Reading

/-! ## Writing -/

/-- What is read as one token, if white space is around. -/
structure IsToken (word : Bytes) : Prop where
  starts : ∃ c rest, word = c :: rest ∧ StartsWord c
  inside : ∀ c ∈ word, isWordByte c = true
  text : 0 ∉ word

instance (c : UInt8) : Decidable (StartsWord c) :=
  decidable_of_iff (isspace c = false ∧ atEnd c = false ∧ c ≠ dquote ∧ c ≠ lessThan)
    ⟨fun ⟨noSpace, noEnd, noQuote, noComment⟩ => ⟨noSpace, noEnd, noQuote, noComment⟩,
      fun starts => ⟨starts.noSpace, starts.noEnd, starts.noQuote, starts.noComment⟩⟩

theorem isToken_iff (word : Bytes) :
    word.head?.any (decide <| StartsWord ·) = true ∧ word.all isWordByte = true ∧ 0 ∉ word ↔
      IsToken word := by
  constructor
  · intro ⟨starts, inside, text⟩
    cases word with
    | nil => cases starts
    | cons c rest =>
        exact ⟨⟨c, rest, rfl, of_decide_eq_true starts⟩, List.all_eq_true.mp inside, text⟩
  · intro token
    obtain ⟨c, rest, rfl, starts⟩ := token.starts
    exact ⟨decide_eq_true starts, List.all_eq_true.mpr token.inside, token.text⟩

instance (word : Bytes) : Decidable (IsToken word) := decidable_of_iff _ (isToken_iff word)

example : IsToken (ascii "rx") ∧ ¬IsToken (ascii "r x") := by decide +kernel

/-- Tokens with a blank between them. -/
def lineText (tokens : List Bytes) : Bytes := [32].intercalate tokens

mutual

/-- An entry, written down. -/
def Entry.lines : Entry → List Bytes
  | .line tokens => [lineText tokens]
  | .block tokens body => lineText tokens :: sectionLines body ++ [CFG_FILE_EOB]

/-- The entries of a section, one behind the other. -/
def sectionLines : List Entry → List Bytes
  | [] => []
  | entry :: entries => entry.lines ++ sectionLines entries

end

mutual

/-- The tokens of each line that an entry is written with, but for the closing braces. -/
def Entry.tokenLists : Entry → List (List Bytes)
  | .line tokens => [tokens]
  | .block tokens body => tokens :: sectionTokens body

def sectionTokens : List Entry → List (List Bytes)
  | [] => []
  | entry :: entries => entry.tokenLists ++ sectionTokens entries

end

/-- The tokens make a line that is read as these tokens. -/
structure Writes (tokens : List Bytes) : Prop where
  some : tokens ≠ []
  words : ∀ word ∈ tokens, IsToken word
  fits : (lineText tokens).length < CFG_FILE_MAX_BUF_SZ
  plain : tokens.head? ≠ .some (ascii "include")

section Writing

variable {tokens : List Bytes} {entries : List Entry}

@[simp] theorem lineText_singleton (word : Bytes) : lineText [word] = word := by
  simp [lineText]

theorem lineText_cons (word next : Bytes) (more : List Bytes) :
    lineText (word :: next :: more) = word ++ 32 :: lineText (next :: more) := by
  simp [lineText, List.intercalate]

theorem tokens_lineText (words : ∀ word ∈ tokens, IsToken word) :
    Config.tokens (lineText tokens) = tokens := by
  induction tokens with
  | nil => exact tokens_nil
  | cons word more ih =>
      obtain ⟨first, others⟩ := List.forall_mem_cons.mp words
      obtain ⟨c, rest, rfl, starts⟩ := first.starts
      have inside := (List.forall_mem_cons.mp first.inside).2
      cases more with
      | nil =>
          have boundary : AtBoundary [] := fun _ none => by cases none
          have alone := tokens_word starts inside boundary
          rw [List.append_nil, tokens_nil] at alone
          rw [lineText_singleton, alone]
      | cons next more =>
          rw [lineText_cons, tokens_word starts inside, tokens_space (by decide), ih others]
          intro c first
          cases first
          decide

/-- Each byte of the line is one of a token, or a blank. -/
theorem mem_lineText {c : UInt8} (member : c ∈ lineText tokens) :
    c = 32 ∨ ∃ word ∈ tokens, c ∈ word := by
  induction tokens with
  | nil => cases member
  | cons word more ih =>
      cases more with
      | nil => exact Or.inr ⟨word, List.mem_cons_self .., by simpa using member⟩
      | cons next more =>
          rw [lineText_cons] at member
          cases List.mem_append.mp member with
          | inl front => exact Or.inr ⟨word, List.mem_cons_self .., front⟩
          | inr behind =>
              cases List.mem_cons.mp behind with
              | inl blank => exact Or.inl blank
              | inr later =>
                  refine (ih later).imp id fun ⟨other, among, inside⟩ => ?_
                  exact ⟨other, List.mem_cons_of_mem _ among, inside⟩

theorem lineTokens_lineText (words : ∀ word ∈ tokens, IsToken word) (some : tokens ≠ []) :
    lineTokens (lineText tokens) = .some tokens := by
  cases tokens with
  | nil => exact absurd rfl some
  | cons word more =>
      obtain ⟨c, rest, rfl, starts⟩ := (words word (List.mem_cons_self ..)).starts
      have begins : ∃ behind, lineText ((c :: rest) :: more) = c :: behind := by
        cases more with
        | nil => exact ⟨rest, lineText_singleton _⟩
        | cons next more => exact ⟨_, lineText_cons ..⟩
      obtain ⟨behind, text⟩ := begins
      have noSpace : ¬isspace c = true := by simp [starts.noSpace]
      have noEnd : ¬atEnd c = true := by simp [starts.noEnd]
      rw [lineTokens, ← tokens_lineText words, tokens_lineText words, text,
        List.dropWhile_cons_of_neg noSpace]
      dsimp only
      rw [if_neg noEnd, ← text, tokens_lineText words]

/-- A line does not end inside of a word. -/
theorem not_endsLine {c : UInt8} (word : isWordByte c = true) : endsLine c = false := by
  rw [endsLine, decide_eq_false_iff_not]
  rintro (rfl | rfl) <;> cases word

/-- The line can be read. -/
theorem isConfLine_lineText (writes : Writes tokens) : IsConfLine (lineText tokens) := by
  have noNul : 0 ∉ lineText tokens := by
    intro member
    cases mem_lineText member with
    | inl blank => cases blank
    | inr among =>
        obtain ⟨word, among, inside⟩ := among
        exact (writes.words word among).text inside
  have same := lineTokens_lineText writes.words writes.some
  refine ⟨?_, ⟨writes.fits.le, noNul, ?_⟩, ?_⟩
  · intro c member
    cases mem_lineText member with
    | inl blank =>
        rw [blank]
        decide
    | inr among =>
        obtain ⟨word, among, inside⟩ := among
        exact not_endsLine ((writes.words word among).inside c inside)
  · obtain ⟨count, room⟩ : ∃ count, CFG_FILE_MAX_BUF_SZ - (lineText tokens).length = count + 1 :=
      Nat.exists_eq_succ_of_ne_zero (Nat.sub_pos_of_lt writes.fits).ne'
    rw [splitsInBuffer, buffer, room, List.replicate_succ, tokenizeString_line noNul, same]
    cases tokens with
    | nil => exact absurd rfl writes.some
    | cons word more => rfl
  · rw [includesFile, text_of_not_mem noNul, same]
    have plain := writes.plain
    rcases tokens with _ | ⟨str, _ | ⟨arg, _ | ⟨next, more⟩⟩⟩
    · rfl
    · rfl
    · simpa using plain
    · rfl

theorem isConfLine_brace : IsConfLine CFG_FILE_EOB := by
  decide +kernel

theorem sectionLines_layout : (entries : List Entry) →
    (writes : ∀ tokens ∈ sectionTokens entries, Writes tokens) →
      Layout entries (sectionLines entries) ∧ ∀ line ∈ sectionLines entries, IsConfLine line
  | [], _ => by
      rw [sectionLines]
      exact ⟨.nil, by simp⟩
  | .line tokens :: entries, writes => by
      rw [sectionTokens] at writes
      obtain ⟨first, others⟩ := List.forall_mem_append.mp writes
      obtain ⟨more, lines⟩ := sectionLines_layout entries others
      have whole := first tokens (by simp [Entry.tokenLists])
      rw [sectionLines, Entry.lines]
      exact ⟨.line (lineTokens_lineText whole.words whole.some) more,
        List.forall_mem_cons.mpr ⟨isConfLine_lineText whole, lines⟩⟩
  | .block tokens body :: entries, writes => by
      rw [sectionTokens, Entry.tokenLists] at writes
      obtain ⟨first, others⟩ := List.forall_mem_append.mp writes
      obtain ⟨whole, within⟩ := List.forall_mem_cons.mp first
      obtain ⟨inside, innerLines⟩ := sectionLines_layout body within
      obtain ⟨more, lines⟩ := sectionLines_layout entries others
      have closes : lineTokens CFG_FILE_EOB = some [CFG_FILE_EOB] := by decide +kernel
      rw [sectionLines, Entry.lines, List.append_assoc]
      refine ⟨.block (lineTokens_lineText whole.words whole.some) inside closes more, ?_⟩
      refine List.forall_mem_append.mpr ⟨List.forall_mem_cons.mpr ⟨?_, innerLines⟩, ?_⟩
      · exact isConfLine_lineText whole
      · exact List.forall_mem_cons.mpr ⟨isConfLine_brace, lines⟩

end Writing

end NetDefender.Config
