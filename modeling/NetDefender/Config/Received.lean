import NetDefender.Config.Lines

/-!
# The lines that are received

The lines of a file are the runs of characters between line feeds and carriage returns.  The loop
of `process_stream` receives the non-blank ones as they are if each fits into the buffer, is free of
NULs and can be split into tokens inside the buffer, and nothing is behind the last line end.
-/

namespace NetDefender.Config

open CString

/-! ## Lines -/

/-- The lines of a file; the last one has no line end. -/
def fileLines (file : Bytes) : List Bytes := file.splitOnP endsLine

/-- The line in front of the end of the file. -/
def lastLine (file : Bytes) : Bytes := (fileLines file).getLastD []

/-- Nothing but white space. -/
def isBlank (line : Bytes) : Bool := line.all isspace

def nonBlank (lines : List Bytes) : List Bytes := lines.filter (!isBlank ·)

/-- The line names a file to include. -/
def includesFile (line : Bytes) : Bool :=
  match lineTokens (text line) with
  | some [str, _] => str = ascii "include"
  | _ => false

example : includesFile (ascii "include <init> other.conf") = true := by decide +kernel

/-- The line is split into tokens without leaving the buffer, and if there is a vector, it has a
token. -/
def splitsInBuffer (line : Bytes) : Bool :=
  match tokenizeString (buffer line) with
  | none => false
  | some none => true
  | some (some tokens) => !tokens.isEmpty

/-- The line fits into the buffer, is a string, and can be split into tokens. -/
structure Readable (line : Bytes) : Prop where
  fits : line.length ≤ CFG_FILE_MAX_BUF_SZ
  text : 0 ∉ line
  splits : splitsInBuffer line = true

instance (line : Bytes) : Decidable (Readable line) :=
  decidable_of_iff
    (line.length ≤ CFG_FILE_MAX_BUF_SZ ∧ 0 ∉ line ∧ splitsInBuffer line = true)
    ⟨fun ⟨fits, text, splits⟩ => ⟨fits, text, splits⟩,
      fun readable => ⟨readable.fits, readable.text, readable.splits⟩⟩

/-- All lines are readable, and nothing is behind the last line end. -/
structure ReadsWhole (file : Bytes) : Prop where
  readable : ∀ line ∈ fileLines file, Readable line
  ended : isBlank (lastLine file) = true

section Lines

variable {file line rest : Bytes} {ch : UInt8} {room : Nat}

theorem fileLines_end (ends : endsLine ch = true) :
    fileLines (ch :: rest) = [] :: fileLines rest := by
  simp [fileLines, List.splitOnP_cons_eq_if_modifyHead, ends]

theorem fileLines_char (inside : endsLine ch = false) :
    fileLines (ch :: rest) = (fileLines rest).modifyHead (ch :: ·) := by
  simp [fileLines, List.splitOnP_cons_eq_if_modifyHead, inside]

theorem exists_fileLines (file : Bytes) : ∃ first more, fileLines file = first :: more :=
  List.exists_cons_of_ne_nil (List.splitOnP_ne_nil _ _)

/-- Where the lines fit, they are the pieces. -/
theorem pieces_of_fits (room : Nat) (file : Bytes)
    (first : ∀ line, (fileLines file).head? = some line → line.length ≤ room)
    (fits : ∀ line ∈ (fileLines file).tail, line.length ≤ CFG_FILE_MAX_BUF_SZ) :
    (pieces room file).1 ++ [(pieces room file).2] = fileLines file := by
  induction file generalizing room with
  | nil => simp [pieces, fileLines]
  | cons ch rest ih =>
      obtain ⟨line, more, lines⟩ := exists_fileLines rest
      cases ends : endsLine ch with
      | true =>
          rw [fileLines_end ends] at fits ⊢
          rw [pieces_end room ends, List.cons_append, ih]
          · intro line head
            exact fits line (List.mem_of_mem_head? head)
          · exact fun line member => fits line (List.mem_of_mem_tail member)
      | false =>
          rw [fileLines_char ends, lines, List.modifyHead_cons] at first fits ⊢
          cases room with
          | zero => simpa using first _ rfl
          | succ room =>
              have cut : (pieces room rest).1 ++ [(pieces room rest).2] = line :: more := by
                rw [← lines]
                apply ih
                · intro other head
                  rw [lines] at head
                  cases head
                  simpa using first _ rfl
                · rw [lines]
                  exact fits
              rw [pieces_char ends]
              generalize pieces room rest = left at cut
              obtain ⟨cuts, last⟩ := left
              cases cuts with
              | nil =>
                  cases cut
                  rfl
              | cons piece later =>
                  cases cut
                  rfl

/-- A line that does not fit begins with a piece that fills the buffer. -/
theorem take_mem_pieces (room : Nat) (file : Bytes) :
    (∀ line, (fileLines file).head? = some line → room < line.length →
        (pieces room file).1.head? = some (line.take room)) ∧
      ∀ line ∈ (fileLines file).tail, CFG_FILE_MAX_BUF_SZ < line.length →
        line.take CFG_FILE_MAX_BUF_SZ ∈ (pieces room file).1.tail := by
  induction file generalizing room with
  | nil => simp [fileLines]
  | cons ch rest ih =>
      have whole (line : Bytes) (member : line ∈ fileLines rest)
          (long : CFG_FILE_MAX_BUF_SZ < line.length) :
          line.take CFG_FILE_MAX_BUF_SZ ∈ (pieces CFG_FILE_MAX_BUF_SZ rest).1 := by
        obtain ⟨first, more, lines⟩ := exists_fileLines rest
        have found := ih CFG_FILE_MAX_BUF_SZ
        rw [lines] at found member
        cases List.mem_cons.mp member with
        | inl same =>
            exact List.mem_of_mem_head? (found.1 line (by rw [same]; rfl) long)
        | inr later => exact List.mem_of_mem_tail (found.2 line later long)
      cases ends : endsLine ch with
      | true =>
          rw [fileLines_end ends, pieces_end room ends]
          refine ⟨fun line head long => ?_, whole⟩
          cases head
          simp at long
      | false =>
          obtain ⟨first, more, lines⟩ := exists_fileLines rest
          rw [fileLines_char ends, lines, List.modifyHead_cons]
          cases room with
          | zero =>
              rw [pieces_full ends]
              refine ⟨fun line _ _ => by simp, fun line member long => ?_⟩
              exact whole line (by rw [lines]; exact List.mem_cons_of_mem _ member) long
          | succ room =>
              have found := ih room
              rw [lines] at found
              rw [pieces_char ends]
              generalize pieces room rest = left at found
              obtain ⟨cuts, last⟩ := left
              cases cuts with
              | nil =>
                  refine ⟨fun line head long => ?_, found.2⟩
                  cases head
                  cases found.1 first rfl (by simpa using long)
              | cons piece later =>
                  refine ⟨fun line head long => ?_, found.2⟩
                  cases head
                  cases found.1 first rfl (by simpa using long)
                  simp

theorem length_pieces_le (room : Nat) (file : Bytes) (le : room ≤ CFG_FILE_MAX_BUF_SZ) :
    (∀ piece ∈ (pieces room file).1, piece.length ≤ CFG_FILE_MAX_BUF_SZ) ∧
      (∀ piece, (pieces room file).1.head? = some piece → piece.length ≤ room) := by
  induction file generalizing room with
  | nil => simp [pieces]
  | cons ch rest ih =>
      have whole := (ih CFG_FILE_MAX_BUF_SZ (Nat.le_refl _)).1
      cases ends : endsLine ch with
      | true =>
          rw [pieces_end room ends]
          exact ⟨by simpa using whole, by simp⟩
      | false =>
          cases room with
          | zero =>
              rw [pieces_full ends]
              exact ⟨by simpa using whole, by simp⟩
          | succ room =>
              have shorter := ih room (Nat.le_of_succ_le le)
              rw [pieces_char ends]
              generalize pieces room rest = left at shorter
              obtain ⟨cuts, last⟩ := left
              cases cuts with
              | nil => simp
              | cons piece later =>
                  have short := shorter.2 piece rfl
                  refine ⟨fun other member => ?_, fun other head => ?_⟩
                  · cases List.mem_cons.mp member with
                    | inl same =>
                        rw [same, List.length_cons]
                        exact (Nat.succ_le_succ short).trans le
                    | inr member => exact shorter.1 other (List.mem_cons_of_mem _ member)
                  · cases head
                    exact Nat.succ_le_succ short

end Lines

/-! ## Buffers -/

section Buffers

variable {line : Bytes}

theorem length_buffer (fits : line.length ≤ CFG_FILE_MAX_BUF_SZ) :
    (buffer line).length = CFG_FILE_MAX_BUF_SZ := by
  rw [buffer, List.length_append, List.length_replicate, Nat.add_sub_cancel' fits]

theorem text_of_not_mem (noNul : 0 ∉ line) : text line = line := by
  rw [text, List.takeWhile_eq_self_iff]
  intro c member
  simpa using ne_of_mem_of_not_mem member noNul

theorem text_buffer (noNul : 0 ∉ line) : text (buffer line) = line := by
  have inside : ∀ c ∈ line, decide (c ≠ 0) = true := by
    intro c member
    simpa using ne_of_mem_of_not_mem member noNul
  rw [text, buffer, List.takeWhile_append_of_pos inside]
  cases CFG_FILE_MAX_BUF_SZ - line.length with
  | zero => simp
  | succ count => simp [List.replicate_succ]

/-- What the buffer is split into is what the line is split into. -/
theorem lineTokens_of_buffer (noNul : 0 ∉ line) {found : Option (List Bytes)}
    (split : tokenizeString (buffer line) = some found) : lineTokens line = found := by
  have more := tokenizeString_append [0] split
  have zeros : buffer line ++ [0] =
      line ++ 0 :: List.replicate (CFG_FILE_MAX_BUF_SZ - line.length) 0 := by
    rw [buffer, List.append_assoc, ← List.replicate_succ', List.replicate_succ]
  rw [zeros, tokenizeString_line noNul] at more
  exact Option.some.inj more

/-- A line that includes nothing is not taken for one that does. -/
theorem checkInclude_readable (readable : Readable line) (plain : includesFile line = false) :
    checkInclude (buffer line) = some none := by
  have splits := readable.splits
  rw [splitsInBuffer] at splits
  cases found : tokenizeString (buffer line) with
  | none => simp [found] at splits
  | some result =>
      have tokens := lineTokens_of_buffer readable.text found
      rw [checkInclude, found]
      cases result with
      | none => rfl
      | some words =>
          cases words with
          | nil => simp [found] at splits
          | cons str args =>
              simp only [Option.bind_eq_bind, Option.bind_some]
              rw [includesFile, text_of_not_mem readable.text, tokens] at plain
              split
              next => rfl
              next =>
                split
                next confFile =>
                  have other : str ≠ ascii "include" := by simpa using plain
                  rw [if_neg other]
                next => rfl

theorem splits_of_checkInclude {found : Option Bytes}
    (looked : checkInclude (buffer line) = some found) : splitsInBuffer line = true := by
  rw [checkInclude] at looked
  rw [splitsInBuffer]
  cases split : tokenizeString (buffer line) with
  | none => simp [split] at looked
  | some result =>
      cases result with
      | none => rfl
      | some words =>
          cases words with
          | nil => simp [split] at looked
          | cons str args => rfl

end Buffers

/-! ## The lines of a run -/

section Run

variable {readIncluded : Level → Bytes → Option (List Call)} {level : Level}
  {below levels : List Level} {line buf : Bytes}

/-- The lowest level is the root, which no brace closes. -/
def Rooted (levels : List Level) : Prop := levels.getLast?.map Level.path = some []

theorem rooted_root (keywords : List Keyword) : Rooted [⟨[], keywords⟩] := rfl

theorem Rooted.push (rooted : Rooted (level :: below)) (inner : Level) :
    Rooted (inner :: level :: below) := by
  rwa [Rooted, List.getLast?_cons_cons]

theorem Rooted.pop (rooted : Rooted (level :: below)) (nested : 0 < level.path.length) :
    Rooted below := by
  cases below with
  | nil =>
      have root : level.path = [] := by simpa [Rooted] using rooted
      simp [root] at nested
  | cons next more => rwa [Rooted, List.getLast?_cons_cons] at rooted

@[simp] theorem received_line (buf : Bytes) (events : List Event) :
    received (.line buf :: events) = buf :: received events := rfl

@[simp] theorem received_calls (calls : List Call) : received (calls.map Event.call) = [] := by
  simp [received]

@[simp] theorem received_events (keyword : Keyword) (place : List Nat) (tokens : List Bytes) :
    received (keyword.events place tokens) = [] := by
  rw [Keyword.events]
  split <;> rfl

@[simp] theorem received_append (first second : List Event) :
    received (first ++ second) = received first ++ received second :=
  List.filterMap_append ..

/-- A buffer is received once, and the root is not left. -/
theorem receive_spec {done : List Event × List Level}
    (result : receive level below buf = some done) :
    received done.1 = [buf] ∧ (Rooted (level :: below) → Rooted done.2) := by
  rw [receive] at result
  cases split : tokenizeString buf with
  | none => simp [split] at result
  | some found =>
      rw [split, Option.bind_eq_bind, Option.bind_some] at result
      cases found with
      | none =>
          cases result
          exact ⟨rfl, id⟩
      | some words =>
          cases words with
          | nil => cases result
          | cons str args =>
              dsimp only at result
              split at result
              next closes =>
                cases result
                exact ⟨rfl, fun rooted => rooted.pop closes.2⟩
              next =>
                split at result
                next =>
                  cases result
                  exact ⟨rfl, id⟩
                next keyword index named =>
                  split at result
                  next =>
                    cases result
                    exact ⟨by simp, id⟩
                  next sub =>
                    cases result
                    exact ⟨by simp, fun rooted => rooted.push _⟩

theorem receive_isSome (splits : splitsInBuffer line = true) :
    ∃ done, receive level below (buffer line) = some done := by
  rw [splitsInBuffer] at splits
  rw [receive]
  cases split : tokenizeString (buffer line) with
  | none => simp [split] at splits
  | some found =>
      cases found with
      | none => exact ⟨_, rfl⟩
      | some words =>
          cases words with
          | nil => simp [split] at splits
          | cons str args =>
              simp only [Option.bind_eq_bind, Option.bind_some]
              split
              next => exact ⟨_, rfl⟩
              next =>
                split
                next => exact ⟨_, rfl⟩
                next => split <;> exact ⟨_, rfl⟩

/-- A piece that does not fault can be split, and only its own buffer is received. -/
theorem runLine_spec {chars : Bytes} {done : List Event × List Level} (rooted : Rooted levels)
    (result : runLine readIncluded levels chars = some done) :
    splitsInBuffer chars = true ∧ (∀ buf ∈ received done.1, buf = buffer chars) ∧
      Rooted done.2 := by
  cases levels with
  | nil => cases rooted
  | cons level below =>
      simp only [runLine, Option.bind_eq_bind, Option.bind_eq_some_iff] at result
      obtain ⟨found, looked, result⟩ := result
      refine ⟨splits_of_checkInclude looked, ?_⟩
      cases found with
      | none =>
          have spec := receive_spec result
          exact ⟨by simp [spec.1], spec.2 rooted⟩
      | some confFile =>
          simp only [Option.bind_eq_some_iff] at result
          obtain ⟨called, -, result⟩ := result
          cases result
          exact ⟨by simp, rooted⟩

theorem runLines_spec {lines : List Bytes} {done : List Event × List Level}
    (rooted : Rooted levels) (result : runLines readIncluded levels lines = some done) :
    (∀ chars ∈ lines, splitsInBuffer chars = true) ∧
      (∀ buf ∈ received done.1, ∃ chars ∈ lines, buf = buffer chars) ∧ Rooted done.2 := by
  induction lines generalizing levels done with
  | nil =>
      cases result
      exact ⟨by simp, by simp [received], rooted⟩
  | cons chars more ih =>
      rw [runLines_cons, Option.bind_eq_some_iff] at result
      obtain ⟨first, step, result⟩ := result
      rw [Option.map_eq_some_iff] at result
      obtain ⟨later, steps, rfl⟩ := result
      have one := runLine_spec rooted step
      have many := ih one.2.2 steps
      refine ⟨?_, ?_, many.2.2⟩
      · simpa using ⟨one.1, many.1⟩
      · intro buf member
        cases List.mem_append.mp (received_append first.1 later.1 ▸ member) with
        | inl here => exact ⟨chars, List.mem_cons_self .., one.2.1 buf here⟩
        | inr there =>
            obtain ⟨other, among, same⟩ := many.2.1 buf there
            exact ⟨other, List.mem_cons_of_mem _ among, same⟩

/-- Readable lines are received one after the other. -/
theorem runLines_readable {lines : List Bytes} (rooted : Rooted levels)
    (readable : ∀ line ∈ lines, Readable line)
    (plain : ∀ line ∈ lines, includesFile line = false) :
    ∃ done, runLines readIncluded levels lines = some done ∧
      received done.1 = lines.map buffer ∧ Rooted done.2 := by
  induction lines generalizing levels with
  | nil => exact ⟨_, rfl, rfl, rooted⟩
  | cons line more ih =>
      have first := readable line (List.mem_cons_self ..)
      have looked := checkInclude_readable first (plain line (List.mem_cons_self ..))
      cases levels with
      | nil => cases rooted
      | cons level below =>
          obtain ⟨done, result⟩ : ∃ done, receive level below (buffer line) = some done :=
            receive_isSome first.splits
          have spec := receive_spec result
          obtain ⟨later, results, lines, kept⟩ := ih (spec.2 rooted)
            (fun line member => readable line (List.mem_cons_of_mem _ member))
            (fun line member => plain line (List.mem_cons_of_mem _ member))
          refine ⟨(done.1 ++ later.1, later.2), ?_, ?_, kept⟩
          · rw [runLines_cons]
            simp [runLine, looked, result, results]
          · simp [spec.1, lines]

end Run

/-! ## Whole files -/

section Whole

variable {readIncluded : Level → Bytes → Option (List Call)} {keywords : List Keyword}
  {file line : Bytes}

/-- The non-blank lines that the loop of `process_stream` receives of a file. -/
def receivedLines (readIncluded : Level → Bytes → Option (List Call)) (keywords : List Keyword)
    (file : Bytes) : Option (List Bytes) :=
  (readStream readIncluded ⟨[], keywords⟩ file).map fun events =>
    nonBlank ((received events).map text)

theorem skipSpaces_blank (blank : isBlank line = true) : skipSpaces line = none := by
  induction line with
  | nil => rfl
  | cons c rest ih =>
      rw [isBlank, List.all_cons, Bool.and_eq_true] at blank
      rw [skipSpaces, if_pos blank.1, ih blank.2]

/-- A buffer full of white space is left by the scan. -/
theorem not_splits_blank (blank : isBlank line = true) (full : line.length = CFG_FILE_MAX_BUF_SZ) :
    splitsInBuffer line = false := by
  have whole : buffer line = line := by simp [buffer, full]
  simp [splitsInBuffer, whole, tokenizeString, skipSpaces_blank blank]

theorem noNul_of_blank (blank : isBlank line = true) : 0 ∉ line := by
  intro member
  have space := List.all_eq_true.mp blank 0 member
  cases space

/-- The pieces of a file whose lines fit. -/
theorem pieces_lines (fits : ∀ line ∈ fileLines file, line.length ≤ CFG_FILE_MAX_BUF_SZ) :
    fileLines file =
      (pieces CFG_FILE_MAX_BUF_SZ file).1 ++ [(pieces CFG_FILE_MAX_BUF_SZ file).2] := by
  rw [pieces_of_fits]
  · exact fun line head => fits line (List.mem_of_mem_head? head)
  · exact fun line member => fits line (List.mem_of_mem_tail member)

theorem nonBlank_append (init : List Bytes) (last : Bytes) :
    nonBlank (init ++ [last]) = nonBlank init ↔ isBlank last = true := by
  cases blank : isBlank last <;> simp [nonBlank, blank]

theorem received_runLast {levels : List Level} {last : Bytes} {events : List Event}
    (found : runLast readIncluded levels last = some events) : received events = [] := by
  cases levels with
  | nil =>
      cases found
      rfl
  | cons level below =>
      simp only [runLast, Option.bind_eq_bind, Option.bind_eq_some_iff] at found
      obtain ⟨confFile, -, found⟩ := found
      cases confFile with
      | none =>
          cases found
          rfl
      | some confFile =>
          simp only [Option.bind_eq_some_iff] at found
          obtain ⟨called, -, found⟩ := found
          cases found
          exact received_calls called

/-- What is received of a file with readable lines: all of them but the last one. -/
theorem receivedLines_readable (readable : ∀ line ∈ fileLines file, Readable line)
    (plain : ∀ line ∈ fileLines file, includesFile line = false) :
    receivedLines readIncluded keywords file = some (nonBlank (fileLines file).dropLast) := by
  have lines := pieces_lines fun line member => (readable line member).fits
  rw [receivedLines, readStream_run, run_pieces]
  generalize pieces CFG_FILE_MAX_BUF_SZ file = left at lines
  obtain ⟨init, last⟩ := left
  dsimp only at lines ⊢
  rw [lines] at readable plain ⊢
  have readable_init : ∀ line ∈ init, Readable line :=
    fun line member => readable line (List.mem_append_left _ member)
  obtain ⟨done, results, buffers, rooted⟩ :
      ∃ done, runLines readIncluded [⟨[], keywords⟩] init = some done ∧
        received done.1 = init.map buffer ∧ Rooted done.2 :=
    runLines_readable (rooted_root keywords) readable_init
      fun line member => plain line (List.mem_append_left _ member)
  have looked : checkInclude (buffer last) = some none :=
    checkInclude_readable (readable last (by simp)) (plain last (by simp))
  have final : runLast readIncluded done.2 last = some [] := by
    cases levels : done.2 with
    | nil => rfl
    | cons level below => simp [runLast, looked]
  have texts : (init.map buffer).map text = init := by
    rw [List.map_map]
    exact (List.map_congr_left fun line member =>
      text_buffer (readable_init line member).text).trans (List.map_id _)
  simp [results, final, buffers, texts]

/-- A run that ends has gone through all pieces. -/
theorem readStream_parts {events : List Event}
    (result : readStream readIncluded ⟨[], keywords⟩ file = some events) :
    (∀ piece ∈ (pieces CFG_FILE_MAX_BUF_SZ file).1 ++ [(pieces CFG_FILE_MAX_BUF_SZ file).2],
        splitsInBuffer piece = true) ∧
      ∀ buf ∈ received events, ∃ chars ∈ (pieces CFG_FILE_MAX_BUF_SZ file).1,
        buf = buffer chars := by
  rw [readStream_run, run_pieces, Option.bind_eq_some_iff] at result
  obtain ⟨done, results, final⟩ := result
  rw [Option.map_eq_some_iff] at final
  obtain ⟨last, final, rfl⟩ := final
  obtain ⟨split, buffers, rooted⟩ := runLines_spec (rooted_root keywords) results
  have splitLast : splitsInBuffer (pieces CFG_FILE_MAX_BUF_SZ file).2 = true := by
    cases levels : done.2 with
    | nil =>
        rw [levels] at rooted
        cases rooted
    | cons level below =>
        simp only [levels, runLast, Option.bind_eq_bind, Option.bind_eq_some_iff] at final
        obtain ⟨found, looked, -⟩ := final
        exact splits_of_checkInclude looked
  refine ⟨fun piece member => ?_, ?_⟩
  · cases List.mem_append.mp member with
    | inl among => exact split piece among
    | inr final => exact List.mem_singleton.mp final ▸ splitLast
  · rw [received_append, received_runLast final, List.append_nil]
    exact buffers

/-- A line that is received is no longer than the buffer and has no NUL. -/
theorem received_fits {events : List Event}
    (result : readStream readIncluded ⟨[], keywords⟩ file = some events)
    (member : line ∈ nonBlank ((received events).map text)) :
    line.length ≤ CFG_FILE_MAX_BUF_SZ ∧ 0 ∉ line := by
  obtain ⟨buf, among, rfl⟩ := List.mem_map.mp (List.mem_of_mem_filter member)
  obtain ⟨chars, piece, rfl⟩ := (readStream_parts result).2 buf among
  have short := (length_pieces_le _ file (Nat.le_refl _)).1 chars piece
  refine ⟨?_, fun nul => ?_⟩
  · rw [← length_buffer short]
    exact (List.takeWhile_sublist _).length_le
  · simpa using List.mem_takeWhile_imp nul

/-- A line that is too long begins with a piece that fills the buffer. -/
theorem take_mem (member : line ∈ fileLines file) (long : CFG_FILE_MAX_BUF_SZ < line.length) :
    line.take CFG_FILE_MAX_BUF_SZ ∈ (pieces CFG_FILE_MAX_BUF_SZ file).1 := by
  obtain ⟨first, more, lines⟩ := exists_fileLines file
  have found := take_mem_pieces CFG_FILE_MAX_BUF_SZ file
  rw [lines] at found member
  cases List.mem_cons.mp member with
  | inl same => exact List.mem_of_mem_head? (found.1 line (by rw [same]; rfl) long)
  | inr later => exact List.mem_of_mem_tail (found.2 line later long)

/-- A file whose non-blank lines are all received has readable lines only. -/
theorem readable_of_received {events : List Event}
    (result : readStream readIncluded ⟨[], keywords⟩ file = some events)
    (same : nonBlank ((received events).map text) = nonBlank (fileLines file)) :
    ∀ line ∈ fileLines file, Readable line := by
  have splits := (readStream_parts result).1
  have fits : ∀ line ∈ fileLines file, line.length ≤ CFG_FILE_MAX_BUF_SZ ∧ 0 ∉ line := by
    intro line member
    cases blank : isBlank line with
    | false =>
        apply received_fits result
        rw [same]
        exact List.mem_filter.mpr ⟨member, by simp [blank]⟩
    | true =>
        refine ⟨?_, noNul_of_blank blank⟩
        by_contra long
        rw [Nat.not_le] at long
        have piece := splits _ (List.mem_append_left _ (take_mem member long))
        have blankPiece : isBlank (line.take CFG_FILE_MAX_BUF_SZ) = true :=
          List.all_eq_true.mpr fun c inside =>
            List.all_eq_true.mp blank c (List.mem_of_mem_take inside)
        rw [not_splits_blank blankPiece (List.length_take_of_le long.le)] at piece
        cases piece
  rw [← pieces_lines fun line member => (fits line member).1] at splits
  exact fun line member => ⟨(fits line member).1, (fits line member).2, splits line member⟩

/-- **Received lines.** Of a file without include lines the loop receives the non-blank lines if
and only if all lines are readable and the last one has a line end. -/
theorem received_lines_iff (readIncluded : Level → Bytes → Option (List Call))
    (keywords : List Keyword) (file : Bytes)
    (plain : ∀ line ∈ fileLines file, includesFile line = false) :
    receivedLines readIncluded keywords file = some (nonBlank (fileLines file)) ↔
      ReadsWhole file := by
  have ended : nonBlank (fileLines file).dropLast = nonBlank (fileLines file) ↔
      isBlank (lastLine file) = true := by
    have some_line : fileLines file ≠ [] := List.splitOnP_ne_nil _ _
    have last : lastLine file = (fileLines file).getLast some_line := by
      rw [lastLine, List.getLastD_eq_getLast?, List.getLast?_eq_some_getLast some_line]
      rfl
    rw [last, ← nonBlank_append (fileLines file).dropLast,
      List.dropLast_concat_getLast some_line, eq_comm]
  constructor
  · intro same
    have whole := same
    rw [receivedLines, Option.map_eq_some_iff] at whole
    obtain ⟨events, result, lines⟩ := whole
    have readable := readable_of_received result lines
    rw [receivedLines_readable readable plain, Option.some.injEq] at same
    exact ⟨readable, ended.mp same⟩
  · intro whole
    rw [receivedLines_readable whole.readable plain, ended.mpr whole.ended]

theorem received_lines_timer :
    receivedLines (fun _ _ => none) [⟨ascii "timer_defs", true, none⟩]
        (ascii "timer_defs \x7b\n\n\x7d\n") =
        some (nonBlank (fileLines (ascii "timer_defs \x7b\n\n\x7d\n"))) ↔
      ReadsWhole (ascii "timer_defs \x7b\n\n\x7d\n") :=
  received_lines_iff _ _ _ (by decide +kernel)

/-- The last line is lost if it has no line end; and of a comment longer than the buffer the rest
is received as a line of its own, less the character that the full buffer has no room for. -/
theorem last_line_lost :
    (∀ line ∈ fileLines (ascii "schedule_interval 10"), includesFile line = false) ∧
      receivedLines (fun _ _ => none) [] (ascii "schedule_interval 10") = some [] ∧
      nonBlank (fileLines (ascii "schedule_interval 10")) = [ascii "schedule_interval 10"] ∧
      (∀ line ∈ fileLines (hash :: List.replicate 1024 32 ++ ascii "mtu 9000\n"),
        includesFile line = false) ∧
      receivedLines (fun _ _ => none) [] (hash :: List.replicate 1024 32 ++ ascii "mtu 9000\n") =
        some [hash :: List.replicate 1023 32, ascii "mtu 9000"] ∧
      nonBlank (fileLines (hash :: List.replicate 1024 32 ++ ascii "mtu 9000\n")) =
        [hash :: List.replicate 1024 32 ++ ascii "mtu 9000"] := by
  refine ⟨by decide +kernel, by decide +kernel, by decide +kernel, by decide +kernel,
    by decide +kernel, by decide +kernel⟩

end Whole

end NetDefender.Config
