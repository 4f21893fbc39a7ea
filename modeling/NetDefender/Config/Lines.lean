import NetDefender.Config.Stream

/-!
# The lines of a file

The recursion of `process_stream` is a machine that takes one line after the other and keeps the
levels it is in on a stack.  `read_line` cuts a file into pieces of at most
`CFG_FILE_MAX_BUF_SZ` characters and loses the character behind a full piece; the last piece, in
front of the end of the file, is not handed on.
-/

namespace NetDefender.Config

open CString

/-! ## Pieces -/

/-- The pieces that are cut off a stream, with room for some more characters in the first one, and
what is in front of the end of the file. -/
def pieces : Nat → Bytes → List Bytes × Bytes
  | _, [] => ([], [])
  | room, ch :: rest =>
      if endsLine ch then
        let (more, last) := pieces CFG_FILE_MAX_BUF_SZ rest
        ([] :: more, last)
      else
        match room with
        | 0 =>
            let (more, last) := pieces CFG_FILE_MAX_BUF_SZ rest
            ([] :: more, last)
        | room + 1 =>
            match pieces room rest with
            | ([], last) => ([], ch :: last)
            | (piece :: more, last) => ((ch :: piece) :: more, last)

example : pieces 4 (ascii "a\nb") = ([ascii "a"], ascii "b") := by decide +kernel

section Pieces

variable {ch : UInt8} {rest : Bytes} {room : Nat}

theorem fillBuffer_end (room : Nat) (ends : endsLine ch = true) :
    fillBuffer room (ch :: rest) = ([], false, rest) := by
  cases room <;> simp [fillBuffer, ends]

theorem fillBuffer_full (inside : endsLine ch = false) :
    fillBuffer 0 (ch :: rest) = ([], false, rest) := by
  simp [fillBuffer, inside]

theorem fillBuffer_char (inside : endsLine ch = false) :
    fillBuffer (room + 1) (ch :: rest) =
      (ch :: (fillBuffer room rest).1, (fillBuffer room rest).2) := by
  simp [fillBuffer, inside]

theorem pieces_end (room : Nat) (ends : endsLine ch = true) :
    pieces room (ch :: rest) =
      ([] :: (pieces CFG_FILE_MAX_BUF_SZ rest).1, (pieces CFG_FILE_MAX_BUF_SZ rest).2) := by
  cases room <;> simp [pieces, ends]

theorem pieces_full (inside : endsLine ch = false) :
    pieces 0 (ch :: rest) =
      ([] :: (pieces CFG_FILE_MAX_BUF_SZ rest).1, (pieces CFG_FILE_MAX_BUF_SZ rest).2) := by
  simp [pieces, inside]

theorem pieces_char (inside : endsLine ch = false) :
    pieces (room + 1) (ch :: rest) =
      match pieces room rest with
      | ([], last) => ([], ch :: last)
      | (piece :: more, last) => ((ch :: piece) :: more, last) := by
  simp [pieces, inside]

/-- The first piece is what `read_line` stores. -/
theorem pieces_fillBuffer (room : Nat) (stream : Bytes) :
    pieces room stream =
      if (fillBuffer room stream).2.1 then ([], (fillBuffer room stream).1)
      else
        ((fillBuffer room stream).1 ::
            (pieces CFG_FILE_MAX_BUF_SZ (fillBuffer room stream).2.2).1,
          (pieces CFG_FILE_MAX_BUF_SZ (fillBuffer room stream).2.2).2) := by
  induction stream generalizing room with
  | nil => simp [pieces, fillBuffer]
  | cons ch rest ih =>
      cases ends : endsLine ch with
      | true => simp [pieces_end room ends, fillBuffer_end room ends]
      | false =>
          cases room with
          | zero => simp [pieces_full ends, fillBuffer_full ends]
          | succ room =>
              rw [pieces_char ends, fillBuffer_char ends, ih room]
              cases (fillBuffer room rest).2.1 with
              | true => rfl
              | false => rfl

/-- What is read fits into the buffer. -/
theorem length_fillBuffer_le (room : Nat) (stream : Bytes) :
    (fillBuffer room stream).1.length ≤ room := by
  induction stream generalizing room with
  | nil => simp [fillBuffer]
  | cons ch rest ih =>
      cases ends : endsLine ch with
      | true => simp [fillBuffer_end room ends]
      | false =>
          cases room with
          | zero => simp [fillBuffer_full ends]
          | succ room => simpa [fillBuffer_char ends] using ih room

/-- At the end of the file nothing is left, and else the stream is shorter. -/
theorem fillBuffer_rest (room : Nat) (stream : Bytes) :
    (fillBuffer room stream).2.1 = true ∧ (fillBuffer room stream).2.2 = [] ∨
      (fillBuffer room stream).2.1 = false ∧
        (fillBuffer room stream).2.2.length < stream.length := by
  induction stream generalizing room with
  | nil => exact Or.inl (by simp [fillBuffer])
  | cons ch rest ih =>
      cases ends : endsLine ch with
      | true => exact Or.inr (by simp [fillBuffer_end room ends])
      | false =>
          cases room with
          | zero => exact Or.inr (by simp [fillBuffer_full ends])
          | succ room =>
              rw [fillBuffer_char ends]
              cases ih room with
              | inl atEof => exact Or.inl atEof
              | inr shorter => exact Or.inr ⟨shorter.1, shorter.2.trans (Nat.lt_succ_self _)⟩

end Pieces

/-! ## Levels on a stack -/

section Machine

variable (readIncluded : Level → Bytes → Option (List Call))

/-- The body of the loop of `process_stream`, with the levels that it leaves. -/
def receive (level : Level) (below : List Level) (buf : Bytes) :
    Option (List Event × List Level) := do
  match ← tokenizeString buf with
  | none => some ([.line buf], level :: below)
  | some [] => none
  | some (str :: args) =>
      if str = CFG_FILE_EOB ∧ 0 < level.path.length then some ([.line buf], below)
      else
        match level.find str with
        | none => some ([.line buf], level :: below)
        | some (keyword, index) =>
            let place := level.path ++ [index]
            let called := keyword.events place (str :: args)
            match keyword.sub with
            | none => some (.line buf :: called, level :: below)
            | some sub => some (.line buf :: called, ⟨place, sub⟩ :: level :: below)

/-- What a piece does at a stack of levels; without a level nothing is read. -/
def runLine (levels : List Level) (chars : Bytes) : Option (List Event × List Level) :=
  match levels with
  | [] => some ([], [])
  | level :: below => do
      match ← checkInclude (buffer chars) with
      | none => receive level below (buffer chars)
      | some confFile =>
          let calls ← readIncluded level confFile
          some (calls.map .call, level :: below)

/-- The pieces one after the other. -/
def runLines : List Level → List Bytes → Option (List Event × List Level)
  | levels, [] => some ([], levels)
  | levels, chars :: more => do
      let (events, levels) ← runLine readIncluded levels chars
      let (later, levels) ← runLines levels more
      some (events ++ later, levels)

/-- The last piece is only looked at for a file to include. -/
def runLast (levels : List Level) (chars : Bytes) : Option (List Event) :=
  match levels with
  | [] => some []
  | level :: _ => do
      match ← checkInclude (buffer chars) with
      | none => some []
      | some confFile =>
          let calls ← readIncluded level confFile
          some (calls.map .call)

/-- A whole stream. -/
def run (levels : List Level) (stream : Bytes) : Option (List Event) := do
  let (events, levels) ← runLines readIncluded levels (pieces CFG_FILE_MAX_BUF_SZ stream).1
  let last ← runLast readIncluded levels (pieces CFG_FILE_MAX_BUF_SZ stream).2
  some (events ++ last)

variable {readIncluded} {level : Level} {below levels : List Level} {stream : Bytes}

theorem runLines_cons (levels : List Level) (chars : Bytes) (more : List Bytes) :
    runLines readIncluded levels (chars :: more) =
      (runLine readIncluded levels chars).bind fun done =>
        (runLines readIncluded done.2 more).map fun later => (done.1 ++ later.1, later.2) := by
  simp only [Option.map_eq_bind]
  rfl

theorem run_pieces (levels : List Level) (stream : Bytes) :
    run readIncluded levels stream =
      (runLines readIncluded levels (pieces CFG_FILE_MAX_BUF_SZ stream).1).bind fun done =>
        (runLast readIncluded done.2 (pieces CFG_FILE_MAX_BUF_SZ stream).2).map (done.1 ++ ·) := by
  simp only [Option.map_eq_bind]
  rfl

/-- A stream is cut off piece by piece. -/
theorem run_eq (levels : List Level) (stream : Bytes) :
    run readIncluded levels stream =
      if (fillBuffer CFG_FILE_MAX_BUF_SZ stream).2.1 then
        runLast readIncluded levels (fillBuffer CFG_FILE_MAX_BUF_SZ stream).1
      else
        (runLine readIncluded levels (fillBuffer CFG_FILE_MAX_BUF_SZ stream).1).bind fun done =>
          (run readIncluded done.2 (fillBuffer CFG_FILE_MAX_BUF_SZ stream).2.2).map
            (done.1 ++ ·) := by
  rw [run_pieces, pieces_fillBuffer]
  cases (fillBuffer CFG_FILE_MAX_BUF_SZ stream).2.1 with
  | true => simp [runLines]
  | false =>
      simp only [Bool.false_eq_true, if_false, runLines_cons]
      cases runLine readIncluded levels (fillBuffer CFG_FILE_MAX_BUF_SZ stream).1 with
      | none => rfl
      | some done =>
          simp only [Option.bind_some, run_pieces]
          generalize pieces CFG_FILE_MAX_BUF_SZ (fillBuffer CFG_FILE_MAX_BUF_SZ stream).2.2 = left
          cases runLines readIncluded done.2 left.1 with
          | none => rfl
          | some later => simp [Function.comp_def]

theorem runLines_nil (lines : List Bytes) : runLines readIncluded [] lines = some ([], []) := by
  induction lines with
  | nil => rfl
  | cons chars more ih => simp [runLines, runLine, ih]

theorem run_nil (stream : Bytes) : run readIncluded [] stream = some [] := by
  simp [run, runLines_nil, runLast]

theorem checkInclude_nil : checkInclude (buffer []) = some none := by
  have blank : tokenizeString (buffer []) = some none := by
    decide +kernel
  simp [checkInclude, blank]

theorem run_end (levels : List Level) : run readIncluded levels [] = some [] := by
  rw [run_eq]
  cases levels with
  | nil => simp [fillBuffer, runLast]
  | cons level below => simp [fillBuffer, runLast, checkInclude_nil]

/-- A file without a character includes nothing. -/
theorem checkInclude_of_end (atEof : (fillBuffer CFG_FILE_MAX_BUF_SZ stream).2.1 = true)
    {confFile : Bytes}
    (included : checkInclude (buffer (fillBuffer CFG_FILE_MAX_BUF_SZ stream).1) =
      some (some confFile)) : 0 < stream.length := by
  cases stream with
  | nil => simp [fillBuffer, checkInclude_nil] at included
  | cons ch rest => exact Nat.succ_pos _

/-- One turn of the loop of `read_line`. -/
theorem readLine_succ (fuel : Nat) (level : Level) (stream : Bytes) :
    readLine readIncluded (fuel + 1) level stream =
      let filled := fillBuffer CFG_FILE_MAX_BUF_SZ stream
      (checkInclude (buffer filled.1)).bind fun found =>
        match found with
        | none => some ⟨[], buffer filled.1, !filled.2.1, filled.2.2⟩
        | some confFile =>
            (readIncluded level confFile).bind fun called =>
              (readLine readIncluded fuel level filled.2.2).map fun line =>
                { line with calls := called ++ line.calls } := by
  simp only [Option.map_eq_bind]
  rfl

/-- What `read_line` leaves is shorter, unless the file is at its end. -/
theorem readLine_rest {fuel : Nat} {line : Line}
    (read : readLine readIncluded fuel level stream = some line) :
    line.more = true ∧ line.rest.length < stream.length ∨
      line.more = false ∧ line.rest = [] := by
  induction fuel generalizing stream line with
  | zero => cases read
  | succ fuel ih =>
      rw [readLine_succ] at read
      have left := fillBuffer_rest CFG_FILE_MAX_BUF_SZ stream
      generalize fillBuffer CFG_FILE_MAX_BUF_SZ stream = filled at read left
      simp only [Option.bind_eq_some_iff] at read
      obtain ⟨found, -, read⟩ := read
      cases found with
      | none =>
          cases read
          cases left with
          | inl atEof => exact Or.inr ⟨by simp [atEof.1], atEof.2⟩
          | inr shorter => exact Or.inl ⟨by simp [shorter.1], shorter.2⟩
      | some confFile =>
          simp only [Option.bind_eq_some_iff, Option.map_eq_some_iff] at read
          obtain ⟨called, -, later, reading, same⟩ := read
          cases same
          cases ih reading with
          | inl more =>
              refine Or.inl ⟨more.1, more.2.trans_le ?_⟩
              cases left with
              | inl atEof => simp [atEof.2]
              | inr shorter => exact shorter.2.le
          | inr done => exact Or.inr done

/-- What the machine does with what `read_line` leaves. -/
def afterLine (readIncluded : Level → Bytes → Option (List Call)) (level : Level)
    (below : List Level) (line : Line) : Option (List Event) :=
  if line.more then
    (receive level below line.buf).bind fun done =>
      (run readIncluded done.2 line.rest).map (line.calls.map Event.call ++ done.1 ++ ·)
  else some (line.calls.map Event.call)

/-- Files that are included first put their calls in front. -/
theorem afterLine_calls (called : List Call) (line : Line) :
    afterLine readIncluded level below { line with calls := called ++ line.calls } =
      (afterLine readIncluded level below line).map (called.map Event.call ++ ·) := by
  rw [afterLine, afterLine]
  cases line.more with
  | false => simp
  | true =>
      cases receive level below line.buf with
      | none => simp
      | some done => simp [Function.comp_def]

/-- The machine takes the pieces that `read_line` passes and the one that it hands on. -/
theorem run_readLine (fuel : Nat) (enough : stream.length < fuel) :
    run readIncluded (level :: below) stream =
      (readLine readIncluded fuel level stream).bind (afterLine readIncluded level below) := by
  induction fuel generalizing stream with
  | zero => cases enough
  | succ fuel ih =>
      rw [run_eq, readLine_succ]
      have left := fillBuffer_rest CFG_FILE_MAX_BUF_SZ stream
      have nonempty := @checkInclude_of_end stream
      generalize fillBuffer CFG_FILE_MAX_BUF_SZ stream = filled at left nonempty
      cases included : checkInclude (buffer filled.1) with
      | none => simp [runLast, runLine, included]
      | some found =>
          cases found with
          | none =>
              cases eof : filled.2.1 with
              | true => simp [runLast, included, afterLine, eof]
              | false => simp [runLine, included, afterLine, eof]
          | some confFile =>
              have shorter : filled.2.2.length < fuel := by
                cases left with
                | inl atEof =>
                    have := nonempty atEof.1 included
                    rw [atEof.2, List.length_nil]
                    omega
                | inr shorter => exact shorter.2.trans_le (Nat.le_of_lt_succ enough)
              cases result : readIncluded level confFile with
              | none => simp [runLast, runLine, included, result]
              | some called =>
                  -- the included file is read in front of what `read_line` goes on with
                  have later : ((readLine readIncluded fuel level filled.2.2).map fun line =>
                        { line with calls := called ++ line.calls }).bind
                          (afterLine readIncluded level below) =
                      (run readIncluded (level :: below) filled.2.2).map
                        (called.map Event.call ++ ·) := by
                    rw [ih shorter]
                    cases readLine readIncluded fuel level filled.2.2 with
                    | none => rfl
                    | some line => exact afterLine_calls called line
                  cases left with
                  | inl atEof =>
                      rw [atEof.2, run_end] at later
                      simp [atEof.1, atEof.2, runLast, included, result, later]
                  | inr more =>
                      simp [more.1, runLine, included, result, later]

/-- The calls of `process_stream` for some levels, one after the other. -/
def processLevels (readIncluded : Level → Bytes → Option (List Call)) (fuel : Nat) :
    List Level → Bytes → Option (List Event × Bytes)
  | [], stream => some ([], stream)
  | level :: below, stream =>
      (processStream readIncluded fuel level stream).bind fun inner =>
        (processLevels readIncluded fuel below inner.2).map fun later =>
          (inner.1 ++ later.1, later.2)

@[simp] theorem processLevels_singleton (fuel : Nat) (level : Level) (stream : Bytes) :
    processLevels readIncluded fuel [level] stream =
      processStream readIncluded fuel level stream := by
  cases result : processStream readIncluded fuel level stream <;> simp [processLevels, result]

/-- One turn of the loop of `process_stream`, with what the machine makes of the buffer. -/
theorem processStream_succ (fuel : Nat) (level : Level) (stream : Bytes) :
    processStream readIncluded (fuel + 1) level stream =
      (readLine readIncluded (fuel + 1) level stream).bind fun line =>
        if line.more then
          (receive level [] line.buf).bind fun done =>
            (processLevels readIncluded fuel done.2 line.rest).map fun later =>
              (line.calls.map Event.call ++ done.1 ++ later.1, later.2)
        else some (line.calls.map Event.call, line.rest) := by
  rw [processStream]
  cases read : readLine readIncluded (fuel + 1) level stream with
  | none => rfl
  | some line =>
      simp only [Option.bind_eq_bind, Option.bind_some]
      split
      next more =>
        rw [receive]
        cases words : tokenizeString line.buf with
        | none => rfl
        | some result =>
            cases result with
            | none => simp [Option.map_eq_bind, Function.comp_def]
            | some tokens =>
                cases tokens with
                | nil => rfl
                | cons str args =>
                    simp only [Option.bind_eq_bind, Option.bind_some]
                    split
                    next => simp [processLevels]
                    next =>
                      cases level.find str with
                      | none => simp [Option.map_eq_bind, Function.comp_def]
                      | some found =>
                          obtain ⟨keyword, index⟩ := found
                          cases nested : keyword.sub with
                          | none => simp [nested, Option.map_eq_bind, Function.comp_def]
                          | some sub =>
                              simp [nested, processLevels, Option.map_eq_bind, Function.comp_def,
                                Option.bind_assoc]
      next => rfl

theorem receive_below (level : Level) (below : List Level) (buf : Bytes) :
    receive level below buf =
      (receive level [] buf).map fun done => (done.1, done.2 ++ below) := by
  rw [receive, receive]
  cases tokenizeString buf with
  | none => rfl
  | some result =>
      cases result with
      | none => rfl
      | some tokens =>
          cases tokens with
          | nil => rfl
          | cons str args =>
              simp only [Option.bind_eq_bind, Option.bind_some]
              split
              next => rfl
              next =>
                cases level.find str with
                | none => rfl
                | some found =>
                    obtain ⟨keyword, index⟩ := found
                    cases nested : keyword.sub <;> simp [nested]

/-- `process_stream` leaves no more of the stream than it is given. -/
theorem processStream_rest {fuel : Nat} {result : List Event × Bytes}
    (done : processStream readIncluded fuel level stream = some result) :
    result.2.length ≤ stream.length := by
  induction fuel generalizing level stream result with
  | zero => cases done
  | succ fuel ih =>
      have levels_rest (levels : List Level) (stream : Bytes) (result : List Event × Bytes)
          (done : processLevels readIncluded fuel levels stream = some result) :
          result.2.length ≤ stream.length := by
        induction levels generalizing stream result with
        | nil =>
            cases done
            exact Nat.le_refl _
        | cons level below below_ih =>
            simp only [processLevels, Option.bind_eq_some_iff, Option.map_eq_some_iff] at done
            obtain ⟨inner, processed, later, more, rfl⟩ := done
            exact (below_ih _ _ more).trans (ih processed)
      rw [processStream_succ, Option.bind_eq_some_iff] at done
      obtain ⟨line, read, done⟩ := done
      have shorter := readLine_rest read
      split at done
      next =>
        simp only [Option.bind_eq_some_iff, Option.map_eq_some_iff] at done
        obtain ⟨received, -, later, processed, rfl⟩ := done
        refine (levels_rest _ _ _ processed).trans ?_
        cases shorter with
        | inl more => exact more.2.le
        | inr ended => simp [ended.2]
      next =>
        cases done
        cases shorter with
        | inl more => exact more.2.le
        | inr ended => simp [ended.2]

/-- The recursion of `process_stream` is the machine with its level on the stack. -/
theorem run_processStream (fuel : Nat) (enough : stream.length < fuel) (below : List Level) :
    run readIncluded (level :: below) stream =
      (processStream readIncluded fuel level stream).bind fun done =>
        (run readIncluded below done.2).map (done.1 ++ ·) := by
  induction fuel generalizing level below stream with
  | zero => cases enough
  | succ fuel ih =>
      have run_levels (levels below : List Level) (stream : Bytes) (enough : stream.length < fuel) :
          run readIncluded (levels ++ below) stream =
            (processLevels readIncluded fuel levels stream).bind fun done =>
              (run readIncluded below done.2).map (done.1 ++ ·) := by
        induction levels generalizing stream with
        | nil => simp [processLevels]
        | cons level levels levels_ih =>
            rw [List.cons_append, ih enough, processLevels]
            cases processed : processStream readIncluded fuel level stream with
            | none => rfl
            | some inner =>
                have shorter := processStream_rest processed
                simp only [Option.bind_some, levels_ih inner.2 (shorter.trans_lt enough)]
                cases processLevels readIncluded fuel levels inner.2 with
                | none => rfl
                | some later => simp [Function.comp_def]
      rw [run_readLine (fuel + 1) enough, processStream_succ]
      cases read : readLine readIncluded (fuel + 1) level stream with
      | none => rfl
      | some line =>
          cases readLine_rest read with
          | inl more =>
              have shorter : line.rest.length < fuel :=
                more.2.trans_le (Nat.le_of_lt_succ enough)
              simp only [Option.bind_some, afterLine, more.1, if_true, receive_below level below]
              cases receive level [] line.buf with
              | none => rfl
              | some received =>
                  simp only [Option.map_some, Option.bind_some, run_levels _ _ _ shorter]
                  cases processLevels readIncluded fuel received.2 line.rest with
                  | none => rfl
                  | some later => simp [Function.comp_def]
          | inr ended => simp [afterLine, ended.1, ended.2, run_end]

/-- **Reading a stream.** The handlers are called as the machine says, for any stream. -/
theorem readStream_run (level : Level) (stream : Bytes) :
    readStream readIncluded level stream = run readIncluded [level] stream := by
  rw [run_processStream (stream.length + 1) (Nat.lt_succ_self _), readStream]
  simp [run_nil, Option.map_eq_bind, Function.comp_def]

end Machine

end NetDefender.Config
