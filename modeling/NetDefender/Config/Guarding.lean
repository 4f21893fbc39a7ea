import NetDefender.Config.Blocks
import NetDefender.Config.Keywords

/-!
# What holds at a level

A handler below a keyword may rely on what the handler of that keyword has done, as it is only
called between the lines that open and close the block of the keyword.  The rule for such
conditions is proved here for any handlers and any files, with the files that they include.
-/

namespace NetDefender.Config

open CString

/-! ## Levels of a tree -/

/-- The keywords at the place of a level. -/
def levelAt : List KeywordNode → List Nat → Option (List KeywordNode)
  | nodes, [] => some nodes
  | nodes, index :: path =>
      (nodes[index]?.bind KeywordNode.sub).bind fun sub => levelAt sub path

variable {nodes : List KeywordNode}

theorem levelAt_append (nodes : List KeywordNode) (path : List Nat) (index : Nat) :
    levelAt nodes (path ++ [index]) =
      (levelAt nodes path).bind fun inner => inner[index]?.bind KeywordNode.sub := by
  induction path generalizing nodes with
  | nil =>
      rw [List.nil_append, levelAt, levelAt, Option.bind_some]
      cases nodes[index]?.bind KeywordNode.sub <;> rfl
  | cons first path ih =>
      rw [List.cons_append, levelAt, levelAt]
      cases nodes[first]?.bind KeywordNode.sub with
      | none => rfl
      | some sub => exact ih sub

theorem handlerAt_append (nodes : List KeywordNode) (path : List Nat) (index : Nat) :
    handlerAt nodes (path ++ [index]) =
      (levelAt nodes path).bind fun inner => inner[index]?.bind KeywordNode.handler := by
  induction path generalizing nodes with
  | nil => rfl
  | cons first path ih =>
      obtain ⟨second, more, same⟩ : ∃ second more, path ++ [index] = second :: more := by
        cases path with
        | nil => exact ⟨_, _, rfl⟩
        | cons second more => exact ⟨_, _, rfl⟩
      rw [List.cons_append, same, handlerAt, levelAt, ← same]
      cases nodes[first]?.bind KeywordNode.sub with
      | none => rfl
      | some sub => exact ih sub

theorem treeKeywords_eq_map (nodes : List KeywordNode) :
    treeKeywords nodes = nodes.map KeywordNode.keyword := by
  induction nodes with
  | nil => rfl
  | cons node more ih => rw [treeKeywords, ih, List.map_cons]

theorem keyword_handler (node : KeywordNode) : node.keyword.handler = node.handler.isSome := by
  cases node
  rfl

theorem keyword_sub (node : KeywordNode) : node.keyword.sub = node.sub.map treeKeywords := by
  obtain ⟨str, handler, sub⟩ := node
  cases sub <;> rfl

/-- The level is one of the tree. -/
def Stands (nodes : List KeywordNode) (level : Level) : Prop :=
  (levelAt nodes level.path).map treeKeywords = some level.keywords

/-- Levels that have been opened from a first one. -/
inductive Nested (nodes : List KeywordNode) (base : Level) : List Level → Prop where
  | closed : Nested nodes base []
  | base : Stands nodes base → Nested nodes base [base]
  | push {level : Level} {below : List Level} {index : Nat} {sub : List Keyword}
      (inner : Nested nodes base (level :: below)) :
      Stands nodes ⟨level.path ++ [index], sub⟩ →
      Nested nodes base (⟨level.path ++ [index], sub⟩ :: level :: below)

variable {base level : Level} {below levels : List Level}

theorem Nested.stands (nested : Nested nodes base (level :: below)) : Stands nodes level := by
  cases nested with
  | base stands => exact stands
  | push inner stands => exact stands

theorem Nested.tail (nested : Nested nodes base (level :: below)) : Nested nodes base below := by
  cases nested with
  | base stands => exact .closed
  | push inner stands => exact inner

/-- The place that is current; behind the last brace it is that of the first level. -/
def currentPath (base : Level) : List Level → List Nat
  | [] => base.path
  | level :: _ => level.path

/-- The level that a keyword with a sub level opens. -/
theorem stands_sub {keyword : Keyword} {index : Nat} {sub : List Keyword}
    (stands : Stands nodes level) (place : level.keywords[index]? = some keyword)
    (nested : keyword.sub = some sub) : Stands nodes ⟨level.path ++ [index], sub⟩ := by
  obtain ⟨inner, here, keywords⟩ := Option.map_eq_some_iff.mp stands
  rw [← keywords, treeKeywords_eq_map, List.getElem?_map, Option.map_eq_some_iff] at place
  obtain ⟨node, found, rfl⟩ := place
  rw [keyword_sub] at nested
  rw [Stands, levelAt_append, here, Option.bind_some, found, Option.bind_some, nested]

/-- The handler of a keyword of a level. -/
theorem handlerAt_of_stands {keyword : Keyword} {index : Nat} (stands : Stands nodes level)
    (place : level.keywords[index]? = some keyword) :
    ∃ inner node, levelAt nodes level.path = some inner ∧ inner[index]? = some node ∧
      handlerAt nodes (level.path ++ [index]) = node.handler ∧
      keyword.handler = node.handler.isSome := by
  obtain ⟨inner, here, keywords⟩ := Option.map_eq_some_iff.mp stands
  rw [← keywords, treeKeywords_eq_map, List.getElem?_map, Option.map_eq_some_iff] at place
  obtain ⟨node, found, rfl⟩ := place
  refine ⟨inner, node, here, found, ?_, keyword_handler node⟩
  rw [handlerAt_append, here, Option.bind_some, found, Option.bind_some]

/-! ## The rule -/

section Rule

variable {S : Type} (step : S → Call → Option S) (Fits : Call → Prop)
  (Holds : List Nat → S → Prop)

/-- What is known at the place of a level: it is known at the levels below, and at the sub level
of a keyword once its handler has been called.  Handlers succeed where it is known, if they fit. -/
structure Guarded (nodes : List KeywordNode) : Prop where
  up : ∀ {path index s}, Holds (path ++ [index]) s → Holds path s
  call : ∀ {path index handler tokens s},
    handlerAt nodes (path ++ [index]) = some handler → Holds path s →
    Fits ⟨path ++ [index], tokens⟩ →
    ∃ s', step s ⟨path ++ [index], tokens⟩ = some s' ∧ Holds (path ++ [index]) s'
  quiet : ∀ {path index inner node s}, levelAt nodes path = some inner →
    inner[index]? = some node → node.handler = none → Holds path s → Holds (path ++ [index]) s

/-- Calls lead from what is known at one place to what is known at another. -/
def Leads (path : List Nat) (called : List Call) (path' : List Nat) : Prop :=
  ∀ s, Holds path s → (∀ call ∈ called, Fits call) →
    ∃ s', called.foldlM step s = some s' ∧ Holds path' s'

variable {step Fits Holds} {path path' path'' : List Nat} {called later : List Call}

theorem Leads.refl : Leads step Fits Holds path [] path := fun s holds _ => ⟨s, rfl, holds⟩

theorem Leads.append (first : Leads step Fits Holds path called path')
    (second : Leads step Fits Holds path' later path'') :
    Leads step Fits Holds path (called ++ later) path'' := by
  intro s holds fit
  obtain ⟨middle, ran, known⟩ := first s holds fun call member =>
    fit call (List.mem_append_left _ member)
  obtain ⟨final, rest, last⟩ := second middle known fun call member =>
    fit call (List.mem_append_right _ member)
  refine ⟨final, ?_, last⟩
  rw [List.foldlM_append, ran]
  exact rest

theorem Leads.imp (leads : Leads step Fits Holds path called path')
    (weaker : ∀ s, Holds path' s → Holds path'' s) :
    Leads step Fits Holds path called path'' := by
  intro s holds fit
  obtain ⟨final, ran, known⟩ := leads s holds fit
  exact ⟨final, ran, weaker final known⟩

theorem calls_map (called : List Call) : calls (called.map Event.call) = called := by
  induction called with
  | nil => rfl
  | cons call more ih => exact congrArg (call :: ·) ih

theorem calls_append (first second : List Event) :
    calls (first ++ second) = calls first ++ calls second := List.filterMap_append

variable (guarded : Guarded step Fits Holds nodes)

section Levels

include guarded

/-- What is known where a block is read is known behind its brace. -/
theorem holds_below {s : S} (nested : Nested nodes base (level :: below))
    (holds : Holds level.path s) : Holds (currentPath base below) s := by
  cases nested with
  | base stands => exact holds
  | push inner stands => exact guarded.up holds

theorem holds_base {s : S} (nested : Nested nodes base levels)
    (holds : Holds (currentPath base levels) s) : Holds base.path s := by
  induction nested with
  | closed => exact holds
  | base stands => exact holds
  | push inner stands ih => exact ih (guarded.up holds)

/-- The handler of a keyword, if it has one, leads to its sub level. -/
theorem leads_events {keyword : Keyword} {index : Nat} (stands : Stands nodes level)
    (place : level.keywords[index]? = some keyword) (tokens : List Bytes) :
    Leads step Fits Holds level.path (calls (keyword.events (level.path ++ [index]) tokens))
      (level.path ++ [index]) := by
  obtain ⟨inner, node, here, found, handles, same⟩ := handlerAt_of_stands stands place
  rw [calls_events, same]
  intro s holds fit
  cases held : node.handler with
  | none => exact ⟨s, rfl, guarded.quiet here found held holds⟩
  | some handler =>
      rw [held] at handles fit
      obtain ⟨s', ran, known⟩ := guarded.call handles holds (fit _ (List.mem_singleton_self _))
      refine ⟨s', ?_, known⟩
      rw [Option.isSome_some, if_pos rfl, List.foldlM_cons, ran]
      rfl

/-- A buffer. -/
theorem leads_receive {buf : Bytes} {done : List Event × List Level}
    (nested : Nested nodes base (level :: below)) (result : receive level below buf = some done) :
    Nested nodes base done.2 ∧
      Leads step Fits Holds level.path (calls done.1) (currentPath base done.2) := by
  rw [receive] at result
  obtain ⟨found, -, result⟩ := Option.bind_eq_some_iff.mp result
  cases found with
  | none =>
      cases result
      exact ⟨nested, .refl⟩
  | some words =>
      cases words with
      | nil => cases result
      | cons str args =>
          dsimp only at result
          split at result
          next closes =>
            cases result
            refine ⟨nested.tail, ?_⟩
            exact Leads.refl.imp fun s => holds_below guarded nested
          next =>
            split at result
            next =>
              cases result
              exact ⟨nested, .refl⟩
            next keyword index named =>
              have place := (find_place named).1
              have leads := leads_events guarded nested.stands place (str :: args)
              split at result
              next =>
                cases result
                exact ⟨nested, leads.imp fun s => guarded.up⟩
              next sub inner =>
                cases result
                exact ⟨.push nested (stands_sub nested.stands place inner), leads⟩

end Levels

section Lines

variable {readIncluded : Level → Bytes → Option (List Call)}
  (included : ∀ level confFile called, Stands nodes level →
    readIncluded level confFile = some called →
    Leads step Fits Holds level.path called level.path)

include guarded included

/-- A line, which may include files. -/
theorem leads_runLine {chars : Bytes} {done : List Event × List Level}
    (nested : Nested nodes base levels) (result : runLine readIncluded levels chars = some done) :
    Nested nodes base done.2 ∧
      Leads step Fits Holds (currentPath base levels) (calls done.1)
        (currentPath base done.2) := by
  cases levels with
  | nil =>
      cases result
      exact ⟨nested, .refl⟩
  | cons level below =>
      obtain ⟨found, -, result⟩ := Option.bind_eq_some_iff.mp result
      cases found with
      | none => exact leads_receive guarded nested result
      | some confFile =>
          obtain ⟨called, read, result⟩ := Option.bind_eq_some_iff.mp result
          cases result
          refine ⟨nested, ?_⟩
          rw [calls_map]
          exact included level confFile called nested.stands read

theorem leads_runLines {lines : List Bytes} {done : List Event × List Level}
    (nested : Nested nodes base levels) (result : runLines readIncluded levels lines = some done) :
    Nested nodes base done.2 ∧
      Leads step Fits Holds (currentPath base levels) (calls done.1)
        (currentPath base done.2) := by
  induction lines generalizing levels done with
  | nil =>
      cases result
      exact ⟨nested, .refl⟩
  | cons chars more ih =>
      rw [runLines_cons, Option.bind_eq_some_iff] at result
      obtain ⟨first, line, result⟩ := result
      rw [Option.map_eq_some_iff] at result
      obtain ⟨later, rest, rfl⟩ := result
      obtain ⟨inner, leads⟩ := leads_runLine guarded included nested line
      obtain ⟨last, leadsLater⟩ := ih inner rest
      refine ⟨last, ?_⟩
      rw [calls_append]
      exact leads.append leadsLater

omit guarded in
theorem leads_runLast {chars : Bytes} {events : List Event} (nested : Nested nodes base levels)
    (result : runLast readIncluded levels chars = some events) :
    Leads step Fits Holds (currentPath base levels) (calls events)
      (currentPath base levels) := by
  cases levels with
  | nil =>
      cases result
      exact .refl
  | cons level below =>
      obtain ⟨found, -, result⟩ := Option.bind_eq_some_iff.mp result
      cases found with
      | none =>
          cases result
          exact .refl
      | some confFile =>
          obtain ⟨called, read, result⟩ := Option.bind_eq_some_iff.mp result
          cases result
          rw [calls_map]
          exact included level confFile called nested.stands read

/-- The stream of a file, from the level that is current. -/
theorem leads_readStream {stream : Bytes} {events : List Event} (stands : Stands nodes base)
    (result : readStream readIncluded base stream = some events) :
    Leads step Fits Holds base.path (calls events) base.path := by
  rw [readStream_run, run_pieces, Option.bind_eq_some_iff] at result
  obtain ⟨done, lines, result⟩ := result
  rw [Option.map_eq_some_iff] at result
  obtain ⟨last, rest, rfl⟩ := result
  obtain ⟨nested, leads⟩ := leads_runLines guarded included (.base stands) lines
  have ended := leads_runLast included nested rest
  rw [calls_append]
  exact (leads.append ended).imp fun s => holds_base guarded nested

end Lines

section Files

variable {Dir : Type} {files : Files Dir}

theorem leads_readConfFiles {process : Dir → Bytes → Option (List Call)} {path : List Nat}
    {dir : Dir} {names : List Bytes} {called : List Call}
    (processed : ∀ inside stream called, process inside stream = some called →
      Leads step Fits Holds path called path)
    (result : readConfFiles files process dir names = some called) :
    Leads step Fits Holds path called path := by
  induction names generalizing called with
  | nil =>
      cases result
      exact .refl
  | cons name names ih =>
      rw [readConfFiles] at result
      split at result
      next =>
        cases result
        exact .refl
      next stream opened =>
        dsimp only at result
        split at result
        next inside reached entered =>
          obtain ⟨read, first, result⟩ := Option.bind_eq_some_iff.mp result
          obtain ⟨later, rest, result⟩ := Option.bind_eq_some_iff.mp result
          cases result
          exact (processed inside stream read first).append (ih rest)
        next =>
          rw [Option.bind_eq_bind, Option.bind_some] at result
          obtain ⟨later, rest, result⟩ := Option.bind_eq_some_iff.mp result
          cases result
          exact ih rest

include guarded

/-- **The rule.** Whatever the files say, the calls that they make keep what is known at the level
where they are read, and none of those that fit fails. -/
theorem leads_readConfFile {depth : Nat} {dir : Dir} {level : Level} {confFile : Bytes}
    {called : List Call} (stands : Stands nodes level)
    (result : readConfFile files depth dir level confFile = some called) :
    Leads step Fits Holds level.path called level.path := by
  induction depth generalizing dir level confFile called with
  | zero => cases result
  | succ depth ih =>
      refine leads_readConfFiles ?_ result
      intro inside stream called read
      obtain ⟨events, reading, rfl⟩ := Option.map_eq_some_iff.mp read
      refine leads_readStream guarded ?_ stands reading
      intro level confFile called stands read
      dsimp only at read
      split at read
      next => exact ih stands read
      next =>
        cases read
        exact .refl

end Files

end Rule

end NetDefender.Config
