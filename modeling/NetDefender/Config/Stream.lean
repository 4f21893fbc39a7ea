import NetDefender.Config.Tokens

/-!
# The configuration stream

`read_line`, `process_stream` and `read_conf_file` of `parser.c`.  A file is the list of its bytes.
The level of nested keywords is the stack of the calls of `process_stream`; `g_keyword_level` is the
length of the path that leads to the current one.  `none` is a fault: a read behind a buffer, an
empty vector whose first slot is read, or files that include each other without end.
-/

namespace NetDefender.Config

open CString

def CFG_FILE_MAX_BUF_SZ : Nat := 1024

def CFG_FILE_EOB : Bytes := ascii "\x7d"

def lineFeed : UInt8 := 10

def carriageReturn : UInt8 := 13

/-- A keyword, whether it has a handler, and the keywords of its sub level. -/
structure Keyword where
  str : Bytes
  handler : Bool
  sub : Option (List Keyword)

/-- The keywords of a level and the places of the keywords that lead to it. -/
structure Level where
  path : List Nat
  keywords : List Keyword

/-- A call of the handler of a keyword, which is named by its place in the tree. -/
structure Call where
  keyword : List Nat
  tokens : List Bytes
  deriving DecidableEq, Repr

/-- What `process_stream` does: its loop receives a buffer, or calls a handler. -/
inductive Event where
  | line (buf : Bytes)
  | call (call : Call)
  deriving DecidableEq, Repr

/-! ## Lines -/

/-- A line feed or a carriage return. -/
def endsLine (ch : UInt8) : Bool := ch = lineFeed ∨ ch = carriageReturn

/-- The inner loop of `read_line`: the characters that are stored, whether the loop ended with
`EOF`, and what is left of the stream.  The character that finds no room is read all the same. -/
def fillBuffer : Nat → Bytes → Bytes × Bool × Bytes
  | _, [] => ([], true, [])
  | room, ch :: rest =>
      if endsLine ch then ([], false, rest)
      else
        match room with
        | 0 => ([], false, rest)
        | room + 1 =>
            let (chars, eof, behind) := fillBuffer room rest
            (ch :: chars, eof, behind)

/-- The buffer with the stored characters; it is cleared before each line. -/
def buffer (chars : Bytes) : Bytes :=
  chars ++ List.replicate (CFG_FILE_MAX_BUF_SZ - chars.length) 0

/-- `check_include` up to the reading: the name of the file, if the buffer includes one. -/
def checkInclude (buf : Bytes) : Option (Option Bytes) := do
  match ← tokenizeString buf with
  | none => some none
  | some [] => none
  | some (str :: args) =>
      if str = CFG_FILE_EOB then some none
      else
        match args with
        | [confFile] => if str = ascii "include" then some (some confFile) else some none
        | _ => some none

/-- What `read_line` leaves: the calls made for included files, the buffer, whether the result is 1,
and the stream. -/
structure Line where
  calls : List Call
  buf : Bytes
  more : Bool
  rest : Bytes

section Stream

-- What the reading of included files calls, at the current level.
variable (readIncluded : Level → Bytes → Option (List Call))

/-- `read_line`.  Each file that is included takes bytes of the stream, so that the fuel bounds
them. -/
def readLine : Nat → Level → Bytes → Option Line
  | 0, _, _ => none
  | fuel + 1, level, stream => do
      let (chars, eof, rest) := fillBuffer CFG_FILE_MAX_BUF_SZ stream
      match ← checkInclude (buffer chars) with
      | none => some { calls := [], buf := buffer chars, more := !eof, rest }
      | some confFile =>
          let calls ← readIncluded level confFile
          let line ← readLine fuel level rest
          some { line with calls := calls ++ line.calls }

/-- The first keyword of a level with the name, and its place. -/
def Level.find (level : Level) (str : Bytes) : Option (Keyword × Nat) :=
  level.keywords.zipIdx.find? fun (keyword, _) => keyword.str = str

/-- The call of the handler, if there is one. -/
def Keyword.events (keyword : Keyword) (place : List Nat) (tokens : List Bytes) : List Event :=
  if keyword.handler then [.call ⟨place, tokens⟩] else []

/-- `process_stream`: what it does, and what it leaves of the stream.  Each turn of the loop reads
bytes of the stream, so that the fuel bounds the turns and the levels. -/
def processStream : Nat → Level → Bytes → Option (List Event × Bytes)
  | 0, _, _ => none
  | fuel + 1, level, stream => do
      let line ← readLine readIncluded (fuel + 1) level stream
      let read := line.calls.map Event.call
      if line.more then
        match ← tokenizeString line.buf with
        | none =>
            let (later, rest) ← processStream fuel level line.rest
            some (read ++ .line line.buf :: later, rest)
        | some [] => none
        | some (str :: args) =>
            if str = CFG_FILE_EOB ∧ 0 < level.path.length then
              some (read ++ [.line line.buf], line.rest)
            else
              match level.find str with
              | none =>
                  let (later, rest) ← processStream fuel level line.rest
                  some (read ++ .line line.buf :: later, rest)
              | some (keyword, index) =>
                  let place := level.path ++ [index]
                  let called := keyword.events place (str :: args)
                  match keyword.sub with
                  | none =>
                      let (later, rest) ← processStream fuel level line.rest
                      some (read ++ .line line.buf :: called ++ later, rest)
                  | some sub =>
                      let (inner, rest) ← processStream fuel ⟨place, sub⟩ line.rest
                      let (later, rest) ← processStream fuel level rest
                      some (read ++ .line line.buf :: called ++ inner ++ later, rest)
      else some (read, line.rest)

/-- `process_stream` on the stream of a file. -/
def readStream (level : Level) (stream : Bytes) : Option (List Event) :=
  (processStream readIncluded (stream.length + 1) level stream).map Prod.fst

end Stream

/-- The handlers that are called. -/
def calls (events : List Event) : List Call :=
  events.filterMap fun
    | .line _ => none
    | .call call => some call

/-- The buffers that the loop of `process_stream` receives. -/
def received (events : List Event) : List Bytes :=
  events.filterMap fun
    | .line buf => some buf
    | .call _ => none

/-! ## Files -/

/-- What the file system answers in a directory: the names that match a pattern, the contents of a
file that can be opened, whether `getcwd` succeeds, and the directory of a file if `chdir` to it
succeeds. -/
structure Files (Dir : Type) where
  glob : Dir → Bytes → List Bytes
  fopen : Dir → Bytes → Option Bytes
  getcwd : Dir → Bool
  dirname : Dir → Bytes → Option Dir

section Files

variable {Dir : Type} (files : Files Dir)

/-- The loop of `read_conf_file`; a file that cannot be opened ends it.  The way back with `chdir`
succeeds. -/
def readConfFiles (process : Dir → Bytes → Option (List Call)) (dir : Dir) :
    List Bytes → Option (List Call)
  | [] => some []
  | path :: paths =>
      match files.fopen dir path with
      | none => some []
      | some stream => do
          let read ←
            match files.getcwd dir, files.dirname dir path with
            | true, some inside => process inside stream
            | _, _ => some []
          let later ← readConfFiles process dir paths
          some (read ++ later)

/-- `read_conf_file`, with a bound for the nesting of included files.  `check_include` reads a file
only where `getcwd` succeeds. -/
def readConfFile : Nat → Dir → Level → Bytes → Option (List Call)
  | 0, _, _, _ => none
  | depth + 1, dir, level, confFile =>
      let readIncluded inside level confFile :=
        if files.getcwd inside then readConfFile depth inside level confFile else some []
      let process inside stream := (readStream (readIncluded inside) level stream).map calls
      readConfFiles files process dir (files.glob dir confFile)

end Files

end NetDefender.Config
