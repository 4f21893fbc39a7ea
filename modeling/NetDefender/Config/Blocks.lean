import NetDefender.Config.Received

/-!
# Unknown blocks

A line `k {` with an unknown keyword opens no level, but the brace that closes its block closes the
level that is current then.  What is called for the text behind a block depends only on the levels
that the block leaves.
-/

namespace NetDefender.Config

open CString

/-- Lines, each with a line feed. -/
def linesText (lines : List Bytes) : Bytes := lines.flatMap (· ++ [lineFeed])

/-- A text that the next line can be put behind. -/
def AtLineStart (front : Bytes) : Prop := front.getLast?.all endsLine = true

/-- The levels behind a text; `none` if reading it faults. -/
def levelsBehind (readIncluded : Level → Bytes → Option (List Call)) (keywords : List Keyword)
    (front : Bytes) : Option (List Level) :=
  (runLines readIncluded [⟨[], keywords⟩] (pieces CFG_FILE_MAX_BUF_SZ front).1).map Prod.snd

/-- The calls that are made for the rest of a text: those behind the ones that the text in front
makes by itself. -/
def callsBehind (readIncluded : Level → Bytes → Option (List Call)) (keywords : List Keyword)
    (front rest : Bytes) : Option (List Call) := do
  let before ← readStream readIncluded ⟨[], keywords⟩ front
  let whole ← readStream readIncluded ⟨[], keywords⟩ (front ++ rest)
  some ((calls whole).drop (calls before).length)

/-! ## Pieces of a text behind another -/

section Append

variable {readIncluded : Level → Bytes → Option (List Call)} {keywords : List Keyword}
  {front : Bytes}

theorem pieces_append (room : Nat) (rest : Bytes) (starts : AtLineStart front)
    (nonempty : front ≠ []) :
    (pieces room front).1 ≠ [] ∧ (pieces room front).2 = [] ∧
      pieces room (front ++ rest) =
        ((pieces room front).1 ++ (pieces CFG_FILE_MAX_BUF_SZ rest).1,
          (pieces CFG_FILE_MAX_BUF_SZ rest).2) := by
  induction front generalizing room with
  | nil => exact absurd rfl nonempty
  | cons ch more ih =>
      cases more with
      | nil =>
          have ends : endsLine ch = true := by simpa [AtLineStart] using starts
          rw [List.cons_append, List.nil_append, pieces_end room ends, pieces_end room ends]
          simp [pieces]
      | cons next later =>
          have starts_more : AtLineStart (next :: later) := by
            rwa [AtLineStart, List.getLast?_cons_cons] at starts
          have tail (room : Nat) := ih room starts_more (List.cons_ne_nil _ _)
          rw [List.cons_append]
          cases ends : endsLine ch with
          | true =>
              rw [pieces_end room ends, pieces_end room ends,
                (tail CFG_FILE_MAX_BUF_SZ).2.2]
              exact ⟨List.cons_ne_nil _ _, (tail CFG_FILE_MAX_BUF_SZ).2.1, rfl⟩
          | false =>
              cases room with
              | zero =>
                  rw [pieces_full ends, pieces_full ends, (tail CFG_FILE_MAX_BUF_SZ).2.2]
                  exact ⟨List.cons_ne_nil _ _, (tail CFG_FILE_MAX_BUF_SZ).2.1, rfl⟩
              | succ room =>
                  obtain ⟨some_piece, noLast, cut⟩ := tail room
                  rw [pieces_char ends, pieces_char ends, cut]
                  generalize pieces room (next :: later) = left at some_piece noLast
                  obtain ⟨cuts, last⟩ := left
                  cases cuts with
                  | nil => exact absurd rfl some_piece
                  | cons piece others => exact ⟨List.cons_ne_nil _ _, noLast, rfl⟩

theorem pieces_lineStart (rest : Bytes) (starts : AtLineStart front) :
    (pieces CFG_FILE_MAX_BUF_SZ front).2 = [] ∧
      pieces CFG_FILE_MAX_BUF_SZ (front ++ rest) =
        ((pieces CFG_FILE_MAX_BUF_SZ front).1 ++ (pieces CFG_FILE_MAX_BUF_SZ rest).1,
          (pieces CFG_FILE_MAX_BUF_SZ rest).2) := by
  cases front with
  | nil => simp [pieces]
  | cons ch more => exact (pieces_append _ rest starts (List.cons_ne_nil _ _)).2

theorem runLines_append (levels : List Level) (first second : List Bytes) :
    runLines readIncluded levels (first ++ second) =
      (runLines readIncluded levels first).bind fun done =>
        (runLines readIncluded done.2 second).map fun later => (done.1 ++ later.1, later.2) := by
  induction first generalizing levels with
  | nil => simp [runLines]
  | cons chars more ih =>
      rw [List.cons_append, runLines_cons, runLines_cons]
      cases runLine readIncluded levels chars with
      | none => rfl
      | some step =>
          simp only [Option.bind_some, ih]
          cases runLines readIncluded step.2 more with
          | none => rfl
          | some done => simp [Function.comp_def]

/-- The rest of a text is read from the levels that the text in front leaves. -/
theorem run_append (levels : List Level) (rest : Bytes) (starts : AtLineStart front) :
    run readIncluded levels (front ++ rest) =
      (runLines readIncluded levels (pieces CFG_FILE_MAX_BUF_SZ front).1).bind fun done =>
        (run readIncluded done.2 rest).map (done.1 ++ ·) := by
  rw [run_pieces, (pieces_lineStart rest starts).2, runLines_append]
  cases runLines readIncluded levels (pieces CFG_FILE_MAX_BUF_SZ front).1 with
  | none => rfl
  | some done =>
      simp only [Option.bind_some, run_pieces]
      cases runLines readIncluded done.2 (pieces CFG_FILE_MAX_BUF_SZ rest).1 with
      | none => rfl
      | some later => simp [Function.comp_def]

theorem callsBehind_eq (rest : Bytes) (starts : AtLineStart front) :
    callsBehind readIncluded keywords front rest =
      (levelsBehind readIncluded keywords front).bind fun levels =>
        (run readIncluded levels rest).map calls := by
  have alone : run readIncluded [⟨[], keywords⟩] front =
      (runLines readIncluded [⟨[], keywords⟩] (pieces CFG_FILE_MAX_BUF_SZ front).1).bind
        fun done => (run readIncluded done.2 []).map (done.1 ++ ·) := by
    rw [← run_append _ [] starts, List.append_nil]
  rw [callsBehind, readStream_run, readStream_run, alone, run_append _ rest starts, levelsBehind]
  cases runLines readIncluded [⟨[], keywords⟩] (pieces CFG_FILE_MAX_BUF_SZ front).1 with
  | none => rfl
  | some done =>
      cases later : run readIncluded done.2 rest with
      | none => simp [run_end, later]
      | some events => simp [run_end, later, calls]

end Append

/-! ## Levels of a tree -/

section Levels

variable {readIncluded : Level → Bytes → Option (List Call)} {keywords : List Keyword}
  {level : Level} {below levels : List Level}

/-- The levels of nested keywords of a tree, each in the sub level of a keyword of the next. -/
inductive Chain (keywords : List Keyword) : List Level → Prop where
  | root : Chain keywords [⟨[], keywords⟩]
  | push {level : Level} {below : List Level} {keyword : Keyword} {index : Nat}
      {sub : List Keyword} (chain : Chain keywords (level :: below))
      (place : level.keywords[index]? = some keyword) (nested : keyword.sub = some sub) :
      Chain keywords (⟨level.path ++ [index], sub⟩ :: level :: below)

/-- The place of the upper level tells the levels. -/
theorem Chain.eq_of_path {left right : List Level} (leftChain : Chain keywords left)
    (rightChain : Chain keywords right)
    (same : left.head?.map Level.path = right.head?.map Level.path) : left = right := by
  induction leftChain generalizing right with
  | root =>
      cases rightChain with
      | root => rfl
      | push chain place nested => simp at same
  | push chain place nested ih =>
      cases rightChain with
      | root => simp at same
      | push otherChain otherPlace otherNested =>
          rw [List.head?_cons, List.head?_cons, Option.map_some, Option.map_some,
            Option.some.injEq, List.append_singleton_inj] at same
          have below := ih otherChain (by simp [same.1])
          cases below
          rw [same.2, otherPlace] at place
          cases place
          rw [otherNested] at nested
          cases nested
          rw [same.2]

/-- The root is below all other levels. -/
theorem Chain.eq_root (chain : Chain keywords (level :: below)) (root : level.path = []) :
    level = ⟨[], keywords⟩ ∧ below = [] := by
  cases chain with
  | root => exact ⟨rfl, rfl⟩
  | push chain place nested => simp at root

theorem find_place {str : Bytes} {keyword : Keyword} {index : Nat}
    (found : level.find str = some (keyword, index)) :
    level.keywords[index]? = some keyword ∧ keyword.str = str := by
  rw [Level.find] at found
  refine ⟨?_, by simpa using List.find?_some found⟩
  exact List.mk_mem_zipIdx_iff_getElem?.mp (List.mem_of_find?_eq_some found)

theorem Chain.pop (chain : Chain keywords (level :: below)) (nested : 0 < level.path.length) :
    Chain keywords below := by
  cases chain with
  | root => cases nested
  | push chain place nested => exact chain

@[simp] theorem calls_line (buf : Bytes) (events : List Event) :
    calls (.line buf :: events) = calls events := rfl

theorem calls_events (keyword : Keyword) (place : List Nat) (tokens : List Bytes) :
    calls (keyword.events place tokens) =
      if keyword.handler then [⟨place, tokens⟩] else [] := by
  rw [Keyword.events]
  split <;> rfl

/-- A buffer leads from a chain of levels to another, and calls keywords of the upper level. -/
theorem receive_chain {buf : Bytes} {done : List Event × List Level}
    (chain : Chain keywords (level :: below))
    (result : receive level below buf = some done) :
    Chain keywords done.2 ∧
      ∀ call ∈ calls done.1, ∃ index, call.keyword = level.path ++ [index] := by
  rw [receive] at result
  cases split : tokenizeString buf with
  | none => simp [split] at result
  | some found =>
      rw [split, Option.bind_eq_bind, Option.bind_some] at result
      cases found with
      | none =>
          cases result
          exact ⟨chain, by simp [calls]⟩
      | some words =>
          cases words with
          | nil => cases result
          | cons str args =>
              dsimp only at result
              split at result
              next closes =>
                cases result
                exact ⟨chain.pop closes.2, by simp [calls]⟩
              next =>
                split at result
                next =>
                  cases result
                  exact ⟨chain, by simp [calls]⟩
                next keyword index named =>
                  have called : ∀ call ∈ calls (keyword.events (level.path ++ [index])
                      (str :: args)), ∃ index, call.keyword = level.path ++ [index] := by
                    intro call member
                    rw [calls_events] at member
                    split at member
                    next =>
                      rw [List.mem_singleton] at member
                      exact ⟨index, by rw [member]⟩
                    next => cases member
                  split at result
                  next =>
                    cases result
                    exact ⟨chain, called⟩
                  next sub nested =>
                    cases result
                    exact ⟨.push chain (find_place named).1 nested, called⟩

theorem runLines_chain {lines : List Bytes} {done : List Event × List Level}
    (chain : Chain keywords levels) (result : runLines readIncluded levels lines = some done) :
    Chain keywords done.2 := by
  induction lines generalizing levels done with
  | nil =>
      cases result
      exact chain
  | cons chars more ih =>
      rw [runLines_cons, Option.bind_eq_some_iff] at result
      obtain ⟨first, step, result⟩ := result
      rw [Option.map_eq_some_iff] at result
      obtain ⟨later, steps, rfl⟩ := result
      have kept : Chain keywords first.2 := by
        cases levels with
        | nil => cases chain
        | cons level below =>
            simp only [runLine, Option.bind_eq_bind, Option.bind_eq_some_iff] at step
            obtain ⟨found, -, step⟩ := step
            cases found with
            | none => exact (receive_chain chain step).1
            | some confFile =>
                simp only [Option.bind_eq_some_iff] at step
                obtain ⟨called, -, step⟩ := step
                cases step
                exact chain
      have ended := ih kept steps
      exact ended

theorem levelsBehind_chain {front : Bytes}
    (behind : levelsBehind readIncluded keywords front = some levels) : Chain keywords levels := by
  rw [levelsBehind, Option.map_eq_some_iff] at behind
  obtain ⟨done, result, rfl⟩ := behind
  exact runLines_chain .root result

end Levels

/-! ## Lines that are read whole -/

section Readable

variable {readIncluded : Level → Bytes → Option (List Call)} {keywords : List Keyword}
  {level : Level} {below levels : List Level} {line : Bytes} {lines : List Bytes}

/-- No line feed or carriage return is in the line. -/
def IsLine (line : Bytes) : Prop := ∀ c ∈ line, endsLine c = false

instance (line : Bytes) : Decidable (IsLine line) :=
  inferInstanceAs (Decidable (∀ c ∈ line, endsLine c = false))

example : ¬IsLine (ascii "a\nb") := by decide +kernel

theorem fileLines_linesText (lines : List Bytes) (areLines : ∀ line ∈ lines, IsLine line) :
    fileLines (linesText lines) = lines ++ [[]] := by
  induction lines with
  | nil => simp [linesText, fileLines]
  | cons line more ih =>
      have text : linesText (line :: more) = line ++ lineFeed :: linesText more := by
        simp [linesText]
      rw [text, fileLines, List.splitOnP_append_cons_of_forall_mem
        (areLines line (List.mem_cons_self ..)) lineFeed rfl, ← fileLines,
        ih fun line member => areLines line (List.mem_cons_of_mem _ member)]
      rfl

theorem pieces_linesText (areLines : ∀ line ∈ lines, IsLine line)
    (fits : ∀ line ∈ lines, line.length ≤ CFG_FILE_MAX_BUF_SZ) :
    pieces CFG_FILE_MAX_BUF_SZ (linesText lines) = (lines, []) := by
  have whole := fileLines_linesText lines areLines
  have cut : fileLines (linesText lines) = _ := pieces_lines (by
    rw [whole]
    intro line member
    cases List.mem_append.mp member with
    | inl among => exact fits line among
    | inr final =>
        rw [List.mem_singleton.mp final]
        exact Nat.zero_le _)
  rw [whole] at cut
  have parts := List.append_inj' cut rfl
  rw [Prod.ext_iff]
  exact ⟨parts.1.symm, (List.singleton_inj.mp parts.2).symm⟩

theorem atLineStart_append {front : Bytes} (starts : AtLineStart front) (lines : List Bytes) :
    AtLineStart (front ++ linesText lines) := by
  cases lines.eq_nil_or_concat with
  | inl nothing => simpa [nothing, linesText] using starts
  | inr more =>
      obtain ⟨init, last, rfl⟩ := more
      have text : linesText (init ++ [last]) = (linesText init ++ last) ++ [lineFeed] := by
        simp [linesText]
      rw [AtLineStart, List.concat_eq_append, text, ← List.append_assoc, List.getLast?_concat]
      rfl

/-- The tokens that the loop gets of a readable line. -/
theorem tokenizeString_readable (readable : Readable line) :
    tokenizeString (buffer line) = some (lineTokens line) := by
  have splits := readable.splits
  rw [splitsInBuffer] at splits
  cases found : tokenizeString (buffer line) with
  | none => simp [found] at splits
  | some result => rw [lineTokens_of_buffer readable.text found]

/-- A readable line that includes nothing goes to the loop. -/
theorem runLine_readable (readable : Readable line) (plain : includesFile line = false) :
    runLine readIncluded (level :: below) line = receive level below (buffer line) := by
  simp [runLine, checkInclude_readable readable plain]

/-- The levels behind a text and some lines. -/
theorem levelsBehind_append {front : Bytes} (starts : AtLineStart front)
    (areLines : ∀ line ∈ lines, IsLine line)
    (fits : ∀ line ∈ lines, line.length ≤ CFG_FILE_MAX_BUF_SZ) :
    levelsBehind readIncluded keywords (front ++ linesText lines) =
      (levelsBehind readIncluded keywords front).bind fun levels =>
        (runLines readIncluded levels lines).map Prod.snd := by
  rw [levelsBehind, (pieces_lineStart _ starts).2, pieces_linesText areLines fits, runLines_append,
    levelsBehind]
  cases runLines readIncluded [⟨[], keywords⟩] (pieces CFG_FILE_MAX_BUF_SZ front).1 with
  | none => rfl
  | some done => simp [Function.comp_def]

end Readable

/-! ## Skipped blocks -/

section Blocks

variable {readIncluded : Level → Bytes → Option (List Call)} {keywords : List Keyword}
  {front opener closer : Bytes} {level : Level} {below : List Level} {body block : List Bytes}

/-- A block put behind a text makes no difference for whatever follows. -/
def SkipsBlock (readIncluded : Level → Bytes → Option (List Call)) (keywords : List Keyword)
    (front : Bytes) (block : List Bytes) : Prop :=
  ∀ rest, callsBehind readIncluded keywords (front ++ linesText block) rest =
    callsBehind readIncluded keywords front rest

/-- A name that is read as itself, and is no closing brace. -/
structure IsName (str : Bytes) : Prop where
  isLine : IsLine str
  readable : Readable str
  tokens : lineTokens str = some [str]
  noBrace : str ≠ CFG_FILE_EOB

/-- Some keyword of the level has a handler. -/
def HasHandler (level : Level) : Prop :=
  ∃ keyword index, level.find keyword.str = some (keyword, index) ∧ keyword.handler = true ∧
    IsName keyword.str

/-- A block of an unknown keyword; the lines of its body may be nested in any way. -/
structure UnknownBlock (level : Level) (opener : Bytes) (body : List Bytes) (closer : Bytes) :
    Prop where
  lines : ∀ line ∈ opener :: body ++ [closer],
    IsLine line ∧ Readable line ∧ includesFile line = false
  opens : ∃ k args, lineTokens opener = some (k :: args) ∧
    args.getLast? = some (ascii "\x7b") ∧ k ≠ CFG_FILE_EOB ∧ level.find k = none
  closes : ∃ args, lineTokens closer = some (CFG_FILE_EOB :: args)

/-- A line as a bracket: a keyword with a sub level opens it, and a closing brace closes the upper
level, unless that is the root. -/
def bracket : List Level → Bytes → List Level
  | [], _ => []
  | level :: below, line =>
      match lineTokens line with
      | some (str :: _) =>
          if str = CFG_FILE_EOB ∧ 0 < level.path.length then below
          else
            match level.find str with
            | none => level :: below
            | some (keyword, index) =>
                match keyword.sub with
                | none => level :: below
                | some sub => ⟨level.path ++ [index], sub⟩ :: level :: below
      | _ => level :: below

/-- The body leads from a level to one right above it, which the brace of the block then closes; or
from the root, which no brace closes, back to it. -/
def BodyBalanced (level : Level) (below : List Level) (body : List Bytes) : Prop :=
  (body.foldl bracket (level :: below)).tail = level :: below ∨
    level.path = [] ∧ body.foldl bracket (level :: below) = level :: below

/-- A name is read in the level that is current. -/
theorem run_name {str : Bytes} (name : IsName str) :
    run readIncluded (level :: below) (linesText [str]) =
      (receive level below (buffer str)).map Prod.fst := by
  have plain : includesFile str = false := by
    rw [includesFile, text_of_not_mem name.readable.text, name.tokens]
  rw [run_pieces, pieces_linesText (by simpa using name.isLine) (by simpa using name.readable.fits),
    runLines_cons, runLine_readable name.readable plain]
  cases receive level below (buffer str) with
  | none => rfl
  | some done =>
      cases levels : done.2 with
      | nil => simp [runLines, runLast, levels]
      | cons level below => simp [runLines, runLast, levels, checkInclude_nil]

/-- The name of a keyword calls its handler. -/
theorem run_keyword {keyword : Keyword} {index : Nat}
    (found : level.find keyword.str = some (keyword, index)) (handles : keyword.handler = true)
    (name : IsName keyword.str) :
    (run readIncluded (level :: below) (linesText [keyword.str])).map calls =
      some [⟨level.path ++ [index], [keyword.str]⟩] := by
  rw [run_name name, receive, tokenizeString_readable name.readable, name.tokens]
  cases nested : keyword.sub <;>
    simp [name.noBrace, found, nested, calls_events, handles]

/-- The calls that a name makes in a level are calls of keywords of the level. -/
theorem call_of_name {str : Bytes} {called : List Call} (name : IsName str)
    (chain : Chain keywords (level :: below))
    (result : (run readIncluded (level :: below) (linesText [str])).map calls = some called) :
    ∀ call ∈ called, ∃ index, call.keyword = level.path ++ [index] := by
  rw [run_name name, Option.map_map, Option.map_eq_some_iff] at result
  obtain ⟨done, result, rfl⟩ := result
  exact (receive_chain chain result).2

theorem skipsBlock_of_levels (starts : AtLineStart front)
    (same : levelsBehind readIncluded keywords (front ++ linesText block) =
      levelsBehind readIncluded keywords front) :
    SkipsBlock readIncluded keywords front block := by
  intro rest
  rw [callsBehind_eq rest (atLineStart_append starts block), callsBehind_eq rest starts, same]

theorem levels_of_skipsBlock (starts : AtLineStart front)
    (at_level : levelsBehind readIncluded keywords front = some (level :: below))
    (handled : HasHandler level) (skips : SkipsBlock readIncluded keywords front block) :
    levelsBehind readIncluded keywords (front ++ linesText block) = some (level :: below) := by
  obtain ⟨keyword, index, found, handles, name⟩ := handled
  have same := skips (linesText [keyword.str])
  rw [callsBehind_eq _ (atLineStart_append starts block), callsBehind_eq _ starts, at_level,
    Option.bind_some, run_keyword found handles name, Option.bind_eq_some_iff] at same
  obtain ⟨levels, behind, result⟩ := same
  have chain := levelsBehind_chain behind
  cases levels with
  | nil => cases chain
  | cons other others =>
      obtain ⟨place, path⟩ := call_of_name name chain result _ (List.mem_singleton.mpr rfl)
      rw [List.append_singleton_inj] at path
      rw [behind, chain.eq_of_path (levelsBehind_chain at_level) (by simp [path.1])]

theorem runLine_bracket {levels : List Level} {line : Bytes} (readable : Readable line)
    (plain : includesFile line = false) :
    (runLine readIncluded levels line).map Prod.snd = some (bracket levels line) := by
  cases levels with
  | nil => rfl
  | cons level below =>
      have splits := readable.splits
      rw [runLine_readable readable plain, receive, bracket]
      rw [splitsInBuffer] at splits
      rw [tokenizeString_readable readable] at splits ⊢
      cases tokens : lineTokens line with
      | none => rfl
      | some words =>
          cases words with
          | nil => simp [tokens] at splits
          | cons str args =>
              simp only [Option.bind_eq_bind, Option.bind_some]
              split
              next => rfl
              next =>
                cases level.find str with
                | none => rfl
                | some found =>
                    obtain ⟨keyword, index⟩ := found
                    cases nested : keyword.sub <;> simp [nested]

theorem runLines_bracket {lines : List Bytes} (levels : List Level)
    (readable : ∀ line ∈ lines, Readable line ∧ includesFile line = false) :
    (runLines readIncluded levels lines).map Prod.snd = some (lines.foldl bracket levels) := by
  induction lines generalizing levels with
  | nil => rfl
  | cons line more ih =>
      obtain ⟨whole, plain⟩ := readable line (List.mem_cons_self ..)
      have first : (runLine readIncluded levels line).map Prod.snd = some (bracket levels line) :=
        runLine_bracket whole plain
      rw [Option.map_eq_some_iff] at first
      obtain ⟨done, first, left⟩ := first
      rw [runLines_cons, first, Option.bind_some, Option.map_map, List.foldl_cons, ← left,
        ← ih done.2 fun line member => readable line (List.mem_cons_of_mem _ member)]
      rfl

/-- Brackets keep a chain of levels. -/
theorem bracket_chain {levels : List Level} (chain : Chain keywords levels) (line : Bytes) :
    Chain keywords (bracket levels line) := by
  cases levels with
  | nil => cases chain
  | cons level below =>
      rw [bracket]
      split
      next str args tokens =>
        split
        next closes => exact chain.pop closes.2
        next =>
          split
          next => exact chain
          next keyword index found =>
            split
            next => exact chain
            next sub nested => exact .push chain (find_place found).1 nested
      next => exact chain

theorem foldl_bracket_chain (lines : List Bytes) {levels : List Level}
    (chain : Chain keywords levels) : Chain keywords (lines.foldl bracket levels) := by
  induction lines generalizing levels with
  | nil => exact chain
  | cons line more ih => exact ih (bracket_chain chain line)

/-- The lines of an unknown block lead back if and only if its body is balanced. -/
theorem levels_unknownBlock (starts : AtLineStart front)
    (at_level : levelsBehind readIncluded keywords front = some (level :: below))
    (unknown : UnknownBlock level opener body closer)
    (noBrace : (Level.mk [] keywords).find CFG_FILE_EOB = none) :
    levelsBehind readIncluded keywords (front ++ linesText (opener :: body ++ [closer])) =
        some (level :: below) ↔
      BodyBalanced level below body := by
  have chain := levelsBehind_chain at_level
  have opened : bracket (level :: below) opener = level :: below := by
    obtain ⟨k, args, tokens, -, named, noKeyword⟩ := unknown.opens
    simp [bracket, tokens, named, noKeyword]
  rw [levelsBehind_append starts (fun line member => (unknown.lines line member).1)
    (fun line member => (unknown.lines line member).2.1.fits), at_level, Option.bind_some,
    runLines_bracket _ fun line member => (unknown.lines line member).2, Option.some.injEq]
  simp only [List.foldl_append, List.foldl_cons, List.foldl_nil, opened, BodyBalanced]
  have left := foldl_bracket_chain body chain
  obtain ⟨args, tokens⟩ := unknown.closes
  cases levels : body.foldl bracket (level :: below) with
  | nil =>
      rw [levels] at left
      cases left
  | cons top others =>
      rw [levels] at left
      by_cases root : top.path = []
      · obtain ⟨same, noOthers⟩ := left.eq_root root
        have stays : bracket (top :: others) closer = top :: others := by
          simp [bracket, tokens, same, noBrace]
        rw [stays, noOthers]
        constructor
        · intro back
          cases back
          exact Or.inr ⟨root, rfl⟩
        · intro balanced
          cases balanced with
          | inl above => cases above
          | inr back => exact back.2
      · have closed : bracket (top :: others) closer = others := by
          simp [bracket, tokens, List.length_pos_iff.mpr root]
        rw [closed, List.tail_cons, or_iff_left]
        rintro ⟨atRoot, back⟩
        cases back
        exact root atRoot

/-- **Unknown blocks.** A block is skipped if its lines lead back to the levels it is inserted in,
and only then, where some keyword of the level has a handler; and the lines of an unknown block do
so if and only if its body leads back to the root, or to a level right above the one it is inserted
in. -/
theorem unknown_block_skipped_iff (starts : AtLineStart front)
    (at_level : levelsBehind readIncluded keywords front = some (level :: below)) :
    (levelsBehind readIncluded keywords (front ++ linesText block) = some (level :: below) →
        SkipsBlock readIncluded keywords front block) ∧
      (HasHandler level →
        (SkipsBlock readIncluded keywords front block ↔
          levelsBehind readIncluded keywords (front ++ linesText block) =
            some (level :: below))) ∧
      (∀ opener body closer, block = opener :: body ++ [closer] →
        UnknownBlock level opener body closer →
        (Level.mk [] keywords).find CFG_FILE_EOB = none →
        (levelsBehind readIncluded keywords (front ++ linesText block) = some (level :: below) ↔
          BodyBalanced level below body)) := by
  have enough (back : levelsBehind readIncluded keywords (front ++ linesText block) =
      some (level :: below)) : SkipsBlock readIncluded keywords front block :=
    skipsBlock_of_levels starts (back.trans at_level.symm)
  refine ⟨enough, fun handled => ⟨levels_of_skipsBlock starts at_level handled, enough⟩, ?_⟩
  rintro opener body closer rfl unknown noBrace
  exact levels_unknownBlock starts at_level unknown noBrace

/-- The keywords of `worker_defs`, down to `cpu_id`. -/
def workerKeywords : List Keyword :=
  [⟨ascii "worker_defs", true,
    some [⟨ascii "worker", true, some [⟨ascii "cpu_id", true, none⟩]⟩]⟩]

theorem numaBlock (level : Level) (unknown : level.find (ascii "numa") = none) :
    UnknownBlock level (ascii "numa \x7b") [ascii "node 0"] (ascii "\x7d") where
  lines := by
    decide +kernel
  opens := ⟨ascii "numa", [ascii "\x7b"], by decide +kernel, rfl, by decide +kernel, unknown⟩
  closes := ⟨[], by decide +kernel⟩

theorem numa_balanced : BodyBalanced ⟨[], workerKeywords⟩ [] [ascii "node 0"] := by
  have tokens : lineTokens (ascii "node 0") = some [ascii "node", ascii "0"] := by
    decide +kernel
  have unknown : (Level.mk [] workerKeywords).find (ascii "node") = none := by
    decide +kernel
  exact Or.inr ⟨rfl, by simp [bracket, tokens, unknown]⟩

/-- At the root an unknown block is skipped. -/
theorem numa_skipped :
    SkipsBlock (fun _ _ => none) workerKeywords []
      [ascii "numa \x7b", ascii "node 0", ascii "\x7d"] :=
  have at_root : levelsBehind (fun _ _ => none) workerKeywords [] =
      some [⟨[], workerKeywords⟩] := rfl
  have starts : AtLineStart [] := rfl
  have parts := unknown_block_skipped_iff starts at_root
  parts.1 ((parts.2.2 _ _ _ rfl (numaBlock _ (by decide +kernel)) (by decide +kernel)).mpr
    numa_balanced)

/-- In a worker the brace of an unknown block ends the worker: what follows for it is lost. -/
theorem numa_ends_worker :
    let front := ascii "worker_defs \x7b\nworker cpu0 \x7b\n"
    let block := [ascii "numa \x7b", ascii "node 0", ascii "\x7d"]
    let rest := ascii "cpu_id 1\n"
    (∃ level below,
        levelsBehind (fun _ _ => none) workerKeywords front = some (level :: below) ∧
        UnknownBlock level (ascii "numa \x7b") [ascii "node 0"] (ascii "\x7d")) ∧
      callsBehind (fun _ _ => none) workerKeywords front rest =
        some [⟨[0, 0, 0], [ascii "cpu_id", ascii "1"]⟩] ∧
      callsBehind (fun _ _ => none) workerKeywords (front ++ linesText block) rest = some [] ∧
      ¬ SkipsBlock (fun _ _ => none) workerKeywords front block := by
  intro front block rest
  have kept : callsBehind (fun _ _ => none) workerKeywords front rest =
      some [⟨[0, 0, 0], [ascii "cpu_id", ascii "1"]⟩] := by
    decide +kernel
  have lost : callsBehind (fun _ _ => none) workerKeywords (front ++ linesText block) rest =
      some [] := by
    decide +kernel
  have at_level : (levelsBehind (fun _ _ => none) workerKeywords front).any (fun levels =>
      levels.head?.any fun level => (level.find (ascii "numa")).isNone) = true := by
    decide +kernel
  refine ⟨?_, kept, lost, fun skips => ?_⟩
  · rw [Option.any_eq_true] at at_level
    obtain ⟨levels, behind, unknown⟩ := at_level
    cases levels with
    | nil => cases unknown
    | cons level below =>
        exact ⟨level, below, behind, numaBlock level (Option.isNone_iff_eq_none.mp unknown)⟩
  · have same := skips rest
    rw [kept, lost] at same
    cases same

end Blocks

end NetDefender.Config
