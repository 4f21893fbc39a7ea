import Mathlib.Data.BitVec
import Mathlib.Data.Finset.Card
import Mathlib.Data.List.Flatten
import Mathlib.Data.List.Induction
import Mathlib.Tactic.Common

/-!
# Counters that start anew

A cell that holds a counter, which starts again from zero once its window is over and is
dropped when it is not used.  The counter knows how often events were visited.  It counts
events, each once, if and only if no event is visited again.  A window is the packets for
which such a counter goes on; what is found where a size that grows reaches a threshold is
found once in a window.
-/

namespace NetDefender.Windows

variable {τ ι : Type} {start : τ → Int} {count : τ → BitVec 32}
variable {now : Int} {elapsed : Int → Prop} {granted : Prop}

/-! ## Visits at one time -/

/-- What a number of visits at a time makes of a cell: the counter goes on in its window, or
it starts at this time if its window is over or there is none.  Where a counter can be
allocated every visit counts. -/
structure Advances (start : τ → Int) (count : τ → BitVec 32) (now : Int) (elapsed : Int → Prop)
    (granted : Prop) (visits : Nat) (before after : Option τ) : Prop where
  kept : before.isSome = true → after.isSome = true
  allocated : granted → 0 < visits → after.isSome = true
  counts : ∀ counter ∈ after,
    (∃ old ∈ before, start counter = start old ∧
      count counter = count old + BitVec.ofNat 32 visits ∧ (0 < visits → ¬elapsed (start old))) ∨
    ((∀ old ∈ before, elapsed (start old)) ∧ start counter = now ∧
      ∃ counted ≤ visits, (granted → counted = visits) ∧
        count counter = BitVec.ofNat 32 counted)

theorem Advances.refl (cell : Option τ) :
    Advances start count now elapsed granted 0 cell cell where
  kept := id
  allocated := fun _ visited => absurd visited (Nat.lt_irrefl 0)
  counts := fun counter member => Or.inl ⟨counter, member, rfl, (BitVec.add_zero _).symm,
    fun visited => absurd visited (Nat.lt_irrefl 0)⟩

theorem Advances.trans {visits more : Nat} {first second third : Option τ}
    (early : Advances start count now elapsed granted visits first second)
    (late : Advances start count now elapsed granted more second third) (open' : ¬elapsed now) :
    Advances start count now elapsed granted (visits + more) first third := by
  constructor
  case kept => exact fun some => late.kept (early.kept some)
  case allocated =>
    intro granted visited
    rcases Nat.eq_zero_or_pos more with rfl | visited'
    · exact late.kept (early.allocated granted visited)
    · exact late.allocated granted visited'
  case counts =>
    intro counter member
    rcases late.counts counter member with
      ⟨old, member', started, counted, within⟩ | ⟨fresh, started, counted, few, all, value⟩
    · rcases early.counts old member' with
        ⟨older, member'', started', counted', within'⟩ |
          ⟨fresh, started', counted', few, all, value⟩
      · refine Or.inl ⟨older, member'', started.trans started', ?_, ?_⟩
        · rw [counted, counted', BitVec.add_assoc, BitVec.ofNat_add]
        · intro visited
          rcases Nat.eq_zero_or_pos visits with rfl | visited'
          · rw [← started']
            exact within (by omega)
          · exact within' visited'
      · refine Or.inr ⟨fresh, started.trans started', counted' + more, by omega, ?_, ?_⟩
        · exact fun granted => by rw [all granted]
        · rw [counted, value, BitVec.ofNat_add]
    · have untouched : ∀ old ∈ second, ∃ older ∈ first, start old = start older ∧
          (0 < visits → ¬elapsed (start older)) := by
        intro old member'
        rcases early.counts old member' with ⟨older, member'', started', -, within⟩ |
          ⟨-, started', -⟩
        · exact ⟨older, member'', started', within⟩
        · exact absurd (fresh old member') (started' ▸ open')
      have none : granted → visits = 0 := by
        intro granted
        by_contra visited
        have some := early.allocated granted (Nat.pos_of_ne_zero visited)
        obtain ⟨old, member'⟩ := Option.isSome_iff_exists.mp some
        obtain ⟨older, -, started', within⟩ := untouched old member'
        exact within (Nat.pos_of_ne_zero visited) (started' ▸ fresh old member')
      refine Or.inr ⟨?_, started, counted, by omega, ?_, value⟩
      · intro older member'
        obtain ⟨old, member''⟩ := Option.isSome_iff_exists.mp
          (early.kept (Option.isSome_iff_exists.mpr ⟨older, member'⟩))
        obtain ⟨older', member''', started', -⟩ := untouched old member''
        obtain rfl : older = older' := Option.some.inj (member'.symm.trans member''')
        rw [← started']
        exact fresh old member''
      · intro granted
        rw [none granted, all granted, Nat.zero_add]

/-- A limit that the counter reaches at one of the visits. -/
def Peaks (start : τ → Int) (count : τ → BitVec 32) (now : Int) (elapsed : Int → Prop)
    (granted : Prop) (limit visits : Nat) (before after : Option τ) : Prop :=
  ∃ early late, 0 < early ∧ early + late = visits ∧ ∃ mid,
    Advances start count now elapsed granted early before mid ∧
      (∃ counter ∈ mid, limit ≤ (count counter).toNat) ∧
      Advances start count now elapsed granted late mid after

/-! ## Steps -/

/-- The events that a step visits, and the cell after it. -/
structure Step (τ ι : Type) where
  visits : List ι
  cell : Option τ

/-- The cell after some steps from an empty one. -/
def lastCell (steps : List (Step τ ι)) : Option τ := steps.getLast?.bind Step.cell

/-- The step leads on from a cell: in the window of the counter, or in a new one. -/
structure Moves (start : τ → Int) (count : τ → BitVec 32) (granted : Prop)
    (before : Option τ) (step : Step τ ι) : Prop where
  allocated : granted → step.visits ≠ [] → step.cell.isSome = true
  counts : ∀ counter ∈ step.cell,
    (∃ old ∈ before, start counter = start old ∧
      count counter = count old + BitVec.ofNat 32 step.visits.length) ∨
    ((∀ old ∈ before, start old ≠ start counter) ∧
      ∃ counted ≤ step.visits.length, (granted → counted = step.visits.length) ∧
        count counter = BitVec.ofNat 32 counted)

theorem Moves.of_imp {granted' : Prop} {before : Option τ} {step : Step τ ι}
    (moves : Moves start count granted before step) (weaker : granted' → granted) :
    Moves start count granted' before step where
  allocated := fun all => moves.allocated (weaker all)
  counts := fun counter member => (moves.counts counter member).imp_right
    fun ⟨fresh, counted, few, every, value⟩ =>
      ⟨fresh, counted, few, fun all => every (weaker all), value⟩

/-- Every step leads on from the cell before it. -/
def Runs (start : τ → Int) (count : τ → BitVec 32) (granted : Prop)
    (steps : List (Step τ ι)) : Prop :=
  ∀ earlier step later, steps = earlier ++ step :: later →
    Moves start count granted (lastCell earlier) step

/-- A step that begins with a sweep of counters whose window is over. -/
theorem Advances.moves {keep : τ → Bool} {before : Option τ} {step : Step τ ι}
    (advances : Advances start count now elapsed granted step.visits.length (before.filter keep)
      step.cell)
    (sweeps : ∀ old ∈ before, keep old = false → elapsed (start old)) (open' : ¬elapsed now) :
    Moves start count granted before step := by
  constructor
  case allocated =>
    exact fun granted visited => advances.allocated granted (List.length_pos_iff.mpr visited)
  case counts =>
    intro counter member
    rcases advances.counts counter member with
      ⟨old, member', started, counted, -⟩ | ⟨fresh, started, counted⟩
    · exact Or.inl ⟨old, (Option.mem_filter_iff.mp member').1, started, counted⟩
    · refine Or.inr ⟨?_, counted⟩
      intro old member' same
      rw [started] at same
      have ended : elapsed (start old) := by
        cases stays : keep old with
        | false => exact sweeps old member' stays
        | true => exact fresh old (Option.mem_filter_iff.mpr ⟨member', stays⟩)
      exact open' (same ▸ ended)

/-- A limit that the counter reaches during a step. -/
def Reaches (start : τ → Int) (count : τ → BitVec 32) (limit : Nat) (before : Option τ)
    (step : Step τ ι) : Prop :=
  ∃ counter ∈ step.cell, ∃ visits ≤ step.visits.length,
    (∃ old ∈ before, start counter = start old ∧
      limit ≤ (count old + BitVec.ofNat 32 visits).toNat) ∨
    ((∀ old ∈ before, start old ≠ start counter) ∧ limit ≤ visits)

/-- A limit is reached during a step that begins with a sweep. -/
theorem Peaks.reaches {limit visits : Nat} {keep : τ → Bool} {before : Option τ}
    {step : Step τ ι}
    (peaks : Peaks start count now elapsed granted limit visits (before.filter keep) step.cell)
    (total : visits = step.visits.length)
    (sweeps : ∀ old ∈ before, keep old = false → elapsed (start old)) (open' : ¬elapsed now) :
    Reaches start count limit before step := by
  obtain ⟨early, late, visited, rfl, mid, first, ⟨middle, member, reached⟩, second⟩ := peaks
  obtain ⟨counter, last⟩ :=
    Option.isSome_iff_exists.mp (second.kept (Option.isSome_iff_exists.mpr ⟨middle, member⟩))
  -- the rest of the walk does not start the counter anew
  have same (within : ¬elapsed (start middle)) : start counter = start middle := by
    rcases second.counts counter last with ⟨old, member', started, -⟩ | ⟨fresh, -⟩
    · obtain rfl : old = middle := Option.some.inj (member'.symm.trans member)
      exact started
    · exact absurd (fresh middle member) within
  refine ⟨counter, last, early, by omega, ?_⟩
  rcases first.counts middle member with
    ⟨old, member', started, counted, within⟩ | ⟨fresh, started, counted, few, -, value⟩
  · left
    refine ⟨old, (Option.mem_filter_iff.mp member').1, ?_, counted ▸ reached⟩
    exact (same (started ▸ within visited)).trans started
  · right
    have began : start counter = now := (same (started ▸ open')).trans started
    constructor
    · intro old member' same
      have ended : elapsed (start old) := by
        cases stays : keep old with
        | false => exact sweeps old member' stays
        | true => exact fresh old (Option.mem_filter_iff.mpr ⟨member', stays⟩)
      rw [same, began] at ended
      exact open' ended
    · rw [value, BitVec.toNat_ofNat] at reached
      exact (reached.trans (Nat.mod_le _ _)).trans few

/-! ## The current window -/

/-- A step belongs to the window of the step before it if both leave a counter with the same
start. -/
def join (start : τ → Int) (parts : List (Step τ ι) × List (Step τ ι)) (step : Step τ ι) :
    List (Step τ ι) × List (Step τ ι) :=
  if (parts.2.getLast?.map fun last => last.cell.map start) = some (step.cell.map start) then
    (parts.1, parts.2 ++ [step])
  else (parts.1 ++ parts.2, [step])

/-- The steps before the current window, and those of it. -/
def currentWindow (start : τ → Int) (steps : List (Step τ ι)) :
    List (Step τ ι) × List (Step τ ι) :=
  steps.foldl (join start) ([], [])

/-- The events that were first visited in the current window. -/
def firstVisits [DecidableEq ι] (start : τ → Int) (steps : List (Step τ ι)) : Finset ι :=
  ((currentWindow start steps).2.flatMap Step.visits).toFinset \
    ((currentWindow start steps).1.flatMap Step.visits).toFinset

theorem currentWindow_append (steps : List (Step τ ι)) (step : Step τ ι) :
    currentWindow start (steps ++ [step]) = join start (currentWindow start steps) step := by
  rw [currentWindow, List.foldl_append]
  rfl

/-- The window is the end of the steps. -/
theorem currentWindow_spec (steps : List (Step τ ι)) :
    (currentWindow start steps).1 ++ (currentWindow start steps).2 = steps ∧
      (currentWindow start steps).2.getLast? = steps.getLast? := by
  induction steps using List.reverseRecOn with
  | nil => exact ⟨rfl, rfl⟩
  | append_singleton steps step ih =>
      rw [currentWindow_append, join]
      split
      next =>
        rw [← List.append_assoc, ih.1]
        simp
      next =>
        rw [ih.1]
        simp

theorem Runs.init {steps : List (Step τ ι)} {step : Step τ ι}
    (runs : Runs start count granted (steps ++ [step])) : Runs start count granted steps := by
  intro earlier step' later split
  apply runs earlier step' (later ++ [step])
  rw [split]
  simp

theorem lastCell_append (steps : List (Step τ ι)) (step : Step τ ι) :
    lastCell (steps ++ [step]) = step.cell := by
  rw [lastCell, List.getLast?_append]
  rfl

/-- The step goes on in the window of a counter. -/
theorem join_same {steps : List (Step τ ι)} {step : Step τ ι} {old counter : τ}
    (last : old ∈ lastCell steps) (member : counter ∈ step.cell)
    (same : start counter = start old) :
    currentWindow start (steps ++ [step]) =
      ((currentWindow start steps).1, (currentWindow start steps).2 ++ [step]) := by
  rw [currentWindow_append, join, (currentWindow_spec steps).2]
  obtain ⟨step', ends, member'⟩ := Option.bind_eq_some_iff.mp last
  apply if_pos
  rw [ends, Option.map_some, member', member, Option.map_some, Option.map_some, same]

/-- The step begins a window. -/
theorem join_new {steps : List (Step τ ι)} {step : Step τ ι} {counter : τ}
    (fresh : ∀ old ∈ lastCell steps, start old ≠ start counter) (member : counter ∈ step.cell) :
    currentWindow start (steps ++ [step]) = (steps, [step]) := by
  rw [currentWindow_append, join, (currentWindow_spec steps).1, (currentWindow_spec steps).2]
  apply if_neg
  intro same
  obtain ⟨step', ends, starts⟩ := Option.map_eq_some_iff.mp same
  rw [member, Option.map_some] at starts
  obtain ⟨old, member', started⟩ := Option.map_eq_some_iff.mp starts
  exact fresh old (Option.bind_eq_some_iff.mpr ⟨step', ends, member'⟩) started

/-- The counter has counted visits of the current window, all of them where counters can be
allocated. -/
theorem Runs.counted {steps : List (Step τ ι)} (runs : Runs start count granted steps) :
    ∀ counter ∈ lastCell steps,
      ∃ counted ≤ ((currentWindow start steps).2.flatMap Step.visits).length,
        (granted → counted = ((currentWindow start steps).2.flatMap Step.visits).length) ∧
          count counter = BitVec.ofNat 32 counted := by
  induction steps using List.reverseRecOn with
  | nil => exact fun counter member => absurd member (by simp [lastCell])
  | append_singleton steps step ih =>
      intro counter member
      rw [lastCell_append] at member
      rcases (runs steps step [] rfl).counts counter member with
        ⟨old, last, started, counts⟩ | ⟨fresh, counted, few, all, counts⟩
      · obtain ⟨counted, few, all, value⟩ := ih runs.init old last
        rw [join_same last member started]
        refine ⟨counted + step.visits.length, ?_, ?_, ?_⟩
        · simpa using few
        · exact fun granted => by simpa using all granted
        · rw [counts, value, BitVec.ofNat_add]
      · rw [join_new fresh member]
        exact ⟨counted, by simpa using few, fun granted => by simpa using all granted, counts⟩

/-! ## The steps of a trace -/

section Once

variable {σ : Type} {view : σ → Step τ ι} {trace earlier later : List σ} {last : σ}

theorem Runs.upTo (runs : Runs start count granted (trace.map view))
    (split : trace = earlier ++ last :: later) :
    Runs start count granted (earlier.map view ++ [view last]) := by
  have regroup : trace.map view = earlier.map view ++ [view last] ++ later.map view := by
    rw [split]
    simp
  rw [regroup] at runs
  generalize later.map view = rest at runs
  induction rest using List.reverseRecOn with
  | nil => rwa [List.append_nil] at runs
  | append_singleton rest step ih =>
      apply ih
      rw [← List.append_assoc] at runs
      exact runs.init

theorem nodup_upTo (once : ((trace.map view).flatMap Step.visits).Nodup)
    (split : trace = earlier ++ last :: later) :
    ((earlier.map view ++ [view last]).flatMap Step.visits).Nodup := by
  have regroup : trace.map view = earlier.map view ++ [view last] ++ later.map view := by
    rw [split]
    simp
  rw [regroup, List.flatMap_append] at once
  exact (List.nodup_append.mp once).1

/-! ## Events that are visited once -/

variable [DecidableEq ι]

/-- Where no event is visited twice, every visit of the window is a first one. -/
theorem card_firstVisits {steps : List (Step τ ι)}
    (once : (steps.flatMap Step.visits).Nodup) :
    (firstVisits start steps).card =
      ((currentWindow start steps).2.flatMap Step.visits).length := by
  have parts := (@currentWindow_spec τ ι start steps).1
  rw [← parts, List.flatMap_append, List.nodup_append] at once
  obtain ⟨-, once, apart⟩ := once
  have disjoint : Disjoint ((currentWindow start steps).2.flatMap Step.visits).toFinset
      ((currentWindow start steps).1.flatMap Step.visits).toFinset := by
    rw [List.disjoint_toFinset_iff_disjoint]
    exact fun event member member' => apart event member' event member rfl
  rw [firstVisits, Finset.sdiff_eq_self_of_disjoint disjoint, List.toFinset_card_of_nodup once]

/-- A counter is at most the number of events of its window, if no event is visited twice. -/
theorem Runs.count_le {steps : List (Step τ ι)} (runs : Runs start count granted steps)
    (once : (steps.flatMap Step.visits).Nodup) :
    ∀ counter ∈ lastCell steps,
      (count counter).toNat ≤ (firstVisits start steps).card := by
  intro counter member
  obtain ⟨counted, few, -, value⟩ := runs.counted counter member
  rw [card_firstVisits once, value, BitVec.toNat_ofNat]
  exact (Nat.mod_le _ _).trans few

/-- As many new members as entries: all entries are distinct and new. -/
theorem nodup_append_of_card_sdiff {old new : List ι} (distinct : old.Nodup)
    (many : new.length ≤ (new.toFinset \ old.toFinset).card) : (old ++ new).Nodup := by
  have fewer : (new.toFinset \ old.toFinset).card ≤ new.toFinset.card :=
    Finset.card_le_card Finset.sdiff_subset
  have short := List.toFinset_card_le new
  have nodup : new.Nodup := by
    have same : new.dedup.length = new.length := by
      rw [← List.card_toFinset]
      omega
    exact List.dedup_eq_self.mp ((List.dedup_sublist new).eq_of_length same)
  have apart : Disjoint new.toFinset old.toFinset := by
    apply Finset.sdiff_eq_self_iff_disjoint.mp
    exact Finset.eq_of_subset_of_card_le Finset.sdiff_subset (by omega)
  rw [List.disjoint_toFinset_iff_disjoint] at apart
  rw [List.nodup_append']
  exact ⟨distinct, nodup, apart.symm⟩

/-- If every counter is at most the number of events of its window, no event was visited
twice. -/
theorem Runs.once {steps : List (Step τ ι)} (runs : Runs start count granted steps)
    (all : granted) (few : (steps.flatMap Step.visits).length < 2 ^ 32)
    (bound : ∀ earlier later, steps = earlier ++ later → ∀ counter ∈ lastCell earlier,
      (count counter).toNat ≤ (firstVisits start earlier).card) :
    (steps.flatMap Step.visits).Nodup := by
  induction steps using List.reverseRecOn with
  | nil => exact List.nodup_nil
  | append_singleton steps step ih =>
      have before : (steps.flatMap Step.visits).Nodup := by
        apply ih runs.init
        · rw [List.flatMap_append, List.length_append] at few
          omega
        · intro earlier later split
          apply bound earlier (later ++ [step])
          rw [split, List.append_assoc]
      by_cases none : step.visits = []
      · rw [List.flatMap_append, List.flatMap_singleton, none, List.append_nil]
        exact before
      · obtain ⟨counter, member⟩ := Option.isSome_iff_exists.mp
          ((runs steps step [] rfl).allocated all none)
        have last : counter ∈ lastCell (steps ++ [step]) := by
          rw [lastCell_append]
          exact member
        obtain ⟨counted, -, every, value⟩ := runs.counted counter last
        have limit := bound (steps ++ [step]) [] (List.append_nil _).symm counter last
        obtain ⟨split, ends⟩ := @currentWindow_spec τ ι start (steps ++ [step])
        rw [firstVisits] at limit
        generalize currentWindow start (steps ++ [step]) = parts at *
        obtain ⟨front, window⟩ := parts
        dsimp only at split ends every limit
        have begins : front <+: steps := by
          rw [List.getLast?_append, List.getLast?_singleton, Option.some_or,
            List.getLast?_eq_some_iff] at ends
          obtain ⟨others, rfl⟩ := ends
          rw [← List.append_assoc] at split
          exact ⟨others, (List.append_inj' split rfl).1⟩
        rw [← split, List.flatMap_append] at few ⊢
        rw [List.length_append] at few
        rw [value, BitVec.toNat_ofNat, every all, Nat.mod_eq_of_lt (by omega)] at limit
        apply nodup_append_of_card_sdiff _ limit
        exact before.sublist (begins.sublist.flatMap _)

/-- The limit is reached by events of the current window. -/
theorem Runs.reached {steps : List (Step τ ι)} {step : Step τ ι} {limit : Nat}
    (runs : Runs start count granted (steps ++ [step]))
    (reaches : Reaches start count limit (lastCell steps) step)
    (once : ((steps ++ [step]).flatMap Step.visits).Nodup) :
    limit ≤ (firstVisits start (steps ++ [step])).card := by
  rw [card_firstVisits once]
  obtain ⟨counter, member, visits, few, ⟨old, last, same, reached⟩ | ⟨fresh, reached⟩⟩ := reaches
  · obtain ⟨counted, few', -, value⟩ := runs.init.counted old last
    rw [join_same last member same, List.flatMap_append, List.length_append,
      List.flatMap_singleton]
    rw [value, ← BitVec.ofNat_add, BitVec.toNat_ofNat] at reached
    have below := reached.trans (Nat.mod_le _ _)
    omega
  · rw [join_new fresh member, List.flatMap_singleton]
    exact reached.trans few

/-- At every point of a trace a counter is at most the number of events of its window. -/
theorem Runs.count_le_at (runs : Runs start count granted (trace.map view))
    (once : ((trace.map view).flatMap Step.visits).Nodup)
    (split : trace = earlier ++ last :: later) :
    ∀ counter ∈ (view last).cell,
      (count counter).toNat ≤ (firstVisits start ((earlier ++ [last]).map view)).card := by
  intro counter member
  rw [List.map_append]
  apply (runs.upTo split).count_le (nodup_upTo once split)
  rw [lastCell_append]
  exact member

/-- A limit that is reached at a point of a trace. -/
theorem Runs.reached_at {limit : Nat} (runs : Runs start count granted (trace.map view))
    (once : ((trace.map view).flatMap Step.visits).Nodup)
    (split : trace = earlier ++ last :: later)
    (reaches : Reaches start count limit (lastCell (earlier.map view)) (view last)) :
    limit ≤ (firstVisits start ((earlier ++ [last]).map view)).card := by
  rw [List.map_append]
  exact (runs.upTo split).reached reaches (nodup_upTo once split)

/-- No event is visited twice in a trace whose counters are at most the numbers of events. -/
theorem Runs.once_of_count_le (runs : Runs start count granted (trace.map view))
    (all : granted) (few : ((trace.map view).flatMap Step.visits).length < 2 ^ 32)
    (bound : ∀ earlier last later, trace = earlier ++ last :: later →
      ∀ counter ∈ (view last).cell,
        (count counter).toNat ≤ (firstVisits start ((earlier ++ [last]).map view)).card) :
    ((trace.map view).flatMap Step.visits).Nodup := by
  apply runs.once all few
  intro steps rest split counter member
  obtain ⟨earlier, later, rfl, rfl, -⟩ := List.map_eq_append_iff.mp split
  rcases List.eq_nil_or_concat earlier with rfl | ⟨earlier, last, rfl⟩
  · exact absurd member (by simp [lastCell])
  · rw [List.concat_eq_append] at member split ⊢
    rw [List.map_append, List.map_singleton, lastCell_append] at member
    exact bound earlier last later (by simp) counter member

end Once

/-! ## The window that is current -/

section Current

variable {α : Type} {time : α → Int} {limit : Int} {window : List α} {cell : Option τ}

/-- The window after one more packet, if a packet later than the first one by more than the
limit starts a new window. -/
def continueWindow (time : α → Int) (limit : Int) (window : List α) (packet : α) : List α :=
  match window.head? with
  | none => [packet]
  | some first => if time packet - time first > limit then [packet] else window ++ [packet]

/-- A window that goes on has all the packets, a new one only later ones. -/
theorem foldl_continueWindow (time : α → Int) (limit : Int) (window packets : List α) :
    packets.foldl (continueWindow time limit) window = window ++ packets ∨
      (packets.foldl (continueWindow time limit) window).length ≤ packets.length := by
  induction packets generalizing window with
  | nil => exact Or.inl (List.append_nil _).symm
  | cons packet packets ih =>
      rw [List.foldl_cons]
      have step : continueWindow time limit window packet = window ++ [packet] ∨
          continueWindow time limit window packet = [packet] := by
        rw [continueWindow]
        split
        next none =>
          rw [List.head?_eq_none_iff.mp none]
          exact Or.inl rfl
        next =>
          split
          next => exact Or.inr rfl
          next => exact Or.inl rfl
      rcases step with step | step <;> rw [step]
      · rcases ih (window ++ [packet]) with same | short
        · left
          rw [same, List.append_assoc]
          rfl
        · exact Or.inr (short.trans (Nat.le_succ _))
      · right
        rcases ih [packet] with same | short
        · rw [same]
          rfl
        · exact short.trans (Nat.le_succ _)

/-- The cell has a counter that stands for the current window, if there is one. -/
def Follows (start : τ → Int) (time : α → Int) (stands : List α → τ → Prop) (window : List α) :
    Option τ → Prop
  | none => window = []
  | some counter =>
      ∃ first rest, window = first :: rest ∧ start counter = time first ∧ stands window counter

/-- The window that a packet is put in.  A counter that is kept while its window lasts, and is
restarted or made for an empty one, stands for the packets before it. -/
theorem Follows.restart {stands : List α → τ → Prop}
    (follows : Follows start time stands window cell)
    {restart : τ → τ} {fresh : τ} {packet : α}
    (kept : ∀ counter, time packet - start counter ≤ limit → restart counter = counter)
    (renewed : ∀ counter, stands window counter → time packet - start counter > limit →
      start (restart counter) = time packet ∧ stands [] (restart counter))
    (made : start fresh = time packet ∧ stands [] fresh) (nonnegative : 0 ≤ limit) :
    ∃ before first rest, continueWindow time limit window packet = before ++ [packet] ∧
      before ++ [packet] = first :: rest ∧
      start (restart (cell.getD fresh)) = time first ∧
      stands before (restart (cell.getD fresh)) := by
  cases cell with
  | none =>
      obtain rfl : window = [] := follows
      have open' : time packet - start fresh ≤ limit := by
        rw [made.1, sub_self]
        exact nonnegative
      rw [Option.getD_none, kept fresh open']
      exact ⟨[], packet, [], rfl, rfl, made⟩
  | some counter =>
      obtain ⟨first, rest, rfl, started, standing⟩ := follows
      rw [Option.getD_some, continueWindow, List.head?_cons]
      dsimp only
      rw [← started]
      by_cases elapsed : time packet - start counter > limit
      · rw [if_pos elapsed]
        exact ⟨[], packet, [], rfl, rfl, renewed counter standing elapsed⟩
      · rw [if_neg elapsed, kept counter (not_lt.mp elapsed)]
        exact ⟨first :: rest, first, rest ++ [packet], rfl, rfl, started, standing⟩

/-! ## Limits of a window -/

/-- The current window after some packets, of which some count. -/
def windowOf (time : α → Int) (limit : Int) (counts : α → Bool) (packets : List α) : List α :=
  (packets.filter counts).foldl (continueWindow time limit) []

/-- Two packets that bring a size to a threshold are in different windows, if more packets do
not make it smaller. -/
theorem windowOf_apart {counts : α → Bool} {size : List α → Nat}
    (grows : ∀ window more, size window ≤ size (window ++ more)) {threshold : Nat}
    {earlier between : List α} {first second : α}
    (reached : threshold ≤ size (windowOf time limit counts (earlier ++ [first])))
    (own : counts second = true)
    (below : size (windowOf time limit counts
      (earlier ++ first :: between ++ [second])).dropLast < threshold) :
    (windowOf time limit counts (earlier ++ first :: (between ++ [second]))).length ≤
      (between ++ [second]).length := by
  have regroup : earlier ++ first :: between ++ [second] =
      (earlier ++ [first]) ++ (between ++ [second]) := by simp
  have regroup' : earlier ++ first :: (between ++ [second]) =
      (earlier ++ [first]) ++ (between ++ [second]) := by simp
  rw [regroup] at below
  rw [regroup']
  rw [windowOf, List.filter_append, List.foldl_append, ← windowOf] at below ⊢
  rcases foldl_continueWindow time limit (windowOf time limit counts (earlier ++ [first]))
    ((between ++ [second]).filter counts) with same | short
  · -- the second one would have found the threshold reached
    rw [same, List.filter_append, List.filter_cons_of_pos own, List.filter_nil,
      ← List.append_assoc, List.dropLast_concat] at below
    exact absurd (reached.trans (grows _ _)) (not_le.mpr below)
  · exact short.trans (List.length_filter_le _ _)

/-- What is raised at such packets only is raised in different windows. -/
theorem raised_apart {event : Type} {packet : event → α} {raised : event → Prop}
    (reaches : List α → α → Prop) (size : List α → Nat) {trace : List event}
    (only : ∀ earlier one later, trace = earlier ++ one :: later → raised one →
      reaches (earlier.map packet) (packet one))
    (apart : ∀ {earlier first between second}, reaches earlier first →
      reaches (earlier ++ first :: between) second →
      size (earlier ++ first :: (between ++ [second])) ≤ (between ++ [second]).length)
    (earlier : List event) (first : event) (between : List event) (second : event)
    (later : List event) (split : trace = earlier ++ first :: (between ++ second :: later))
    (alert : raised first) (alert' : raised second) :
    size ((earlier ++ first :: (between ++ [second])).map packet) ≤
      (between ++ [second]).length := by
  have split' : trace = (earlier ++ first :: between) ++ second :: later := by
    rw [split]
    simp
  have reached := only _ _ _ split alert
  have reached' := only _ _ _ split' alert'
  rw [List.map_append, List.map_cons] at reached'
  simpa using apart reached reached'

end Current

end NetDefender.Windows
