import NetDefender.Dns.Connection
import NetDefender.Dns.Reads

/-!
# The sections of a response

`dns_parser_parse` reads each section up to a limit of its own, and up to the first record
that it cannot store, and goes on with the next section from where the cursor stopped.
Records of a message and records that are stored are compared with the place where they
start.
-/

namespace NetDefender.DnsParser

open CString Logged

/-! ## What is stored -/

/-- A stored question with its place. -/
def Event.asQuestion : Event → Option (Nat × Question)
  | .question start _ q => some (start, q.asSent)
  | .read _ | .record .. => none

/-- A record stored in a section with its place. -/
def Event.asRecord (sec : RrSection) : Event → Option (Nat × Resource)
  | .record sec' start _ rr => if sec' = sec then some (start, rr.asSent) else none
  | .read _ | .question .. => none

/-- The questions that are stored. -/
def askedIn (events : List Event) : List (Nat × Question) := events.filterMap Event.asQuestion

/-- The records that are stored in a section. -/
def filedIn (sec : RrSection) (events : List Event) : List (Nat × Resource) :=
  events.filterMap (Event.asRecord sec)

@[simp]
theorem askedIn_append (events events' : List Event) :
    askedIn (events ++ events') = askedIn events ++ askedIn events' :=
  List.filterMap_append

@[simp]
theorem filedIn_append (sec : RrSection) (events events' : List Event) :
    filedIn sec (events ++ events') = filedIn sec events ++ filedIn sec events' :=
  List.filterMap_append

section Entries

variable {sec : RrSection} {start next : Nat} {events : List Event}

@[simp]
theorem filedIn_record (rr : DnsRr) :
    filedIn sec (.record sec start next rr :: events) =
      (start, rr.asSent) :: filedIn sec events :=
  List.filterMap_cons_some (if_pos rfl)

theorem filedIn_record_other {other : RrSection} (different : other ≠ sec) (rr : DnsRr) :
    filedIn other (.record sec start next rr :: events) = filedIn other events :=
  List.filterMap_cons_none (if_neg different.symm)

@[simp]
theorem askedIn_record (rr : DnsRr) :
    askedIn (.record sec start next rr :: events) = askedIn events :=
  List.filterMap_cons_none rfl

@[simp]
theorem askedIn_question (q : DnsQuestion) :
    askedIn (.question start next q :: events) = (start, q.asSent) :: askedIn events :=
  List.filterMap_cons_some rfl

@[simp]
theorem filedIn_question (q : DnsQuestion) :
    filedIn sec (.question start next q :: events) = filedIn sec events :=
  List.filterMap_cons_none rfl

end Entries

section Reads

variable {msg : Message} {α : Type} {program : Recording Event α}

theorem askedIn_of_reads (reads : Always msg.Reads program) : askedIn (log program) = [] := by
  refine List.filterMap_eq_nil_iff.mpr fun event member => ?_
  have only := reads event member
  cases event with
  | read offset => rfl
  | question start next q => exact only.elim
  | record sec start next rr => rfl

theorem filedIn_of_reads (sec : RrSection) (reads : Always msg.Reads program) :
    filedIn sec (log program) = [] := by
  refine List.filterMap_eq_nil_iff.mpr fun event member => ?_
  have only := reads event member
  cases event with
  | read offset => rfl
  | question start next q => rfl
  | record sec start next rr => exact only.elim

end Reads

/-- The records of a section that are left when a loop stops: at its limit, or at the first
record that cannot be allocated. -/
def notStored (granted : Nat → RrGrants) : Nat → Nat → List (Nat × Resource) →
    List (Nat × Resource)
  | 0, _, entries => entries
  | _ + 1, _, [] => []
  | left + 1, index, (place, rr) :: rest =>
      if (granted index).Stores rr then notStored granted left (index + 1) rest
      else (place, rr) :: rest

/-! ## One section -/

section RecordLoop

variable {msg : Message} (sec : RrSection) {granted : Nat → RrGrants} {ptr : Nat}

/-- The loop ends at a record that does not parse. -/
theorem recordLoop_stops (left index : Nat)
    (failed : value (parseDnsRr msg ptr (granted index)) = none) :
    value (recordLoop msg sec granted left index ptr) = (ptr, []) ∧
      (msg.packet ≤ ptr → Always msg.Reads (recordLoop msg sec granted left index ptr)) := by
  cases left with
  | zero => exact ⟨rfl, fun _ => .pure _⟩
  | succ left =>
      constructor
      · rw [recordLoop, value_bind, failed]
        rfl
      · intro inside
        refine .bind (parseDnsRr_bounded inside _).always ?_
        rw [failed]
        exact .pure _

/-- A record that parses is stored, and the loop goes on behind it. -/
theorem recordLoop_stores (left index : Nat) {taken : Nat} {rr : DnsRr}
    (parsed : value (parseDnsRr msg ptr (granted index)) = some (taken, rr)) :
    value (recordLoop msg sec granted (left + 1) index ptr) =
        ((value (recordLoop msg sec granted left (index + 1) (ptr + taken))).1,
          rr :: (value (recordLoop msg sec granted left (index + 1) (ptr + taken))).2) ∧
      log (recordLoop msg sec granted (left + 1) index ptr) =
        log (parseDnsRr msg ptr (granted index)) ++
          .record sec ptr (ptr + taken) rr ::
            log (recordLoop msg sec granted left (index + 1) (ptr + taken)) := by
  constructor
  · rw [recordLoop, value_bind, parsed]
    rfl
  · rw [recordLoop, log_bind, parsed]
    simp only [log_bind, log_record, log_pure, List.append_nil, List.singleton_append]

/-- What the loop stores, it files under its own section, and it stores no question. -/
theorem recordLoop_files (left index : Nat) (inside : msg.packet ≤ ptr) :
    let loop := recordLoop msg sec granted left index ptr
    (value loop).2.map DnsRr.asSent = (filedIn sec (log loop)).map Prod.snd ∧
      (∀ other, other ≠ sec → filedIn other (log loop) = []) ∧ askedIn (log loop) = [] := by
  induction left generalizing index ptr with
  | zero => exact ⟨rfl, fun _ _ => rfl, rfl⟩
  | succ left ih =>
      cases parsed : value (parseDnsRr msg ptr (granted index)) with
      | none =>
          obtain ⟨stopped, reads⟩ := recordLoop_stops sec (left + 1) index parsed
          refine ⟨?_, fun other _ => filedIn_of_reads other (reads inside),
            askedIn_of_reads (reads inside)⟩
          rw [stopped, filedIn_of_reads sec (reads inside)]
          rfl
      | some result =>
          obtain ⟨taken, rr⟩ := result
          obtain ⟨values, events⟩ := recordLoop_stores sec left index parsed
          have reads := (parseDnsRr_bounded inside (granted index)).always
          obtain ⟨stored, elsewhere, unasked⟩ :=
            @ih (ptr + taken) (index + 1) (Nat.le_trans inside (Nat.le_add_right _ _))
          dsimp only
          rw [values, events]
          refine ⟨?_, fun other different => ?_, ?_⟩
          · rw [filedIn_append, filedIn_of_reads sec reads, List.nil_append,
              filedIn_record, List.map_cons, List.map_cons, stored]
          · rw [filedIn_append, filedIn_of_reads other reads, List.nil_append,
              filedIn_record_other different]
            exact elsewhere other different
          · rw [askedIn_append, askedIn_of_reads reads, List.nil_append, askedIn_record]
            exact unasked

/-- A loop that starts at its own section files the records there up to those that are left,
and stops where these start. -/
theorem recordLoop_home {entries : List (Nat × Resource)} {finish : Nat}
    (laid : Consecutive (ResourceAt msg) ptr entries finish) (inside : msg.packet ≤ ptr)
    (left index : Nat) :
    let loop := recordLoop msg sec granted (min entries.length left) index ptr
    let rest := notStored granted left index entries
    filedIn sec (log loop) ++ rest = entries ∧
      (value loop).1 = (rest.head?.map Prod.fst).getD finish := by
  induction laid generalizing left index with
  | nil place =>
      cases left with
      | zero => exact ⟨rfl, rfl⟩
      | succ left => exact ⟨rfl, rfl⟩
  | @cons place next finish rr rest here behind ih =>
      cases left with
      | zero => exact ⟨rfl, rfl⟩
      | succ left =>
          dsimp only
          rw [List.length_cons, Nat.succ_min_succ, notStored]
          split
          next stores =>
            obtain ⟨stored, parsed, same⟩ := here.parse stores
            have forward := here.next_gt
            have moved : place + (next - place) = next := by omega
            obtain ⟨values, events⟩ :=
              recordLoop_stores sec (min rest.length left) index parsed
            rw [moved] at values events
            have reads := (parseDnsRr_bounded inside (granted index)).always
            obtain ⟨filed, cursor⟩ := ih (by omega) left (index + 1)
            rw [values, events, filedIn_append, filedIn_of_reads sec reads, List.nil_append,
              filedIn_record, same, List.cons_append]
            exact ⟨congrArg _ filed, cursor⟩
          next refused =>
            have failed : value (parseDnsRr msg place (granted index)) = none := by
              cases parsed : value (parseDnsRr msg place (granted index)) with
              | none => rfl
              | some result =>
                  obtain ⟨stores, there⟩ := resourceAt_of_parse parsed
                  exact absurd (here.unique there ▸ stores) refused
            obtain ⟨values, reads⟩ :=
              recordLoop_stops sec (min rest.length left + 1) index failed
            rw [values, filedIn_of_reads sec (reads inside)]
            exact ⟨rfl, rfl⟩

end RecordLoop

theorem Consecutive.le {α : Type} {At : Nat → α → Nat → Prop} {start finish : Nat}
    {entries : List (Nat × α)} (laid : Consecutive At start entries finish)
    (forward : ∀ {place entry next}, At place entry next → place < next) : start ≤ finish := by
  induction laid with
  | nil place => exact Nat.le_refl place
  | cons here behind ih => exact Nat.le_trans (Nat.le_of_lt (forward here)) ih

/-- Entries at the end of a section start before its end. -/
theorem Consecutive.suffix {α : Type} {At : Nat → α → Nat → Prop} {start finish : Nat}
    {entries rest : List (Nat × α)} (laid : Consecutive At start entries finish)
    (forward : ∀ {place entry next}, At place entry next → place < next)
    (last : rest <:+ entries) {place : Nat} (cut : rest.head?.map Prod.fst = some place) :
    start ≤ place ∧ place < finish := by
  induction laid with
  | nil _ =>
      rw [List.suffix_nil.mp last] at cut
      exact nomatch cut
  | @cons start next finish entry later here behind ih =>
      have onward := forward here
      rcases List.suffix_cons_iff.mp last with rfl | last
      · have reached := behind.le forward
        obtain rfl : start = place := Option.some.inj cut
        exact ⟨Nat.le_refl start, by omega⟩
      · obtain ⟨after, before⟩ := ih last
        exact ⟨by omega, before⟩

theorem notStored_suffix (granted : Nat → RrGrants) (left index : Nat)
    (entries : List (Nat × Resource)) : notStored granted left index entries <:+ entries := by
  induction left generalizing index entries with
  | zero => exact List.suffix_refl entries
  | succ left ih =>
      cases entries with
      | nil => exact List.suffix_refl []
      | cons entry rest =>
          rw [notStored]
          split
          next => exact (ih (index + 1) rest).trans (List.suffix_cons entry rest)
          next => exact List.suffix_refl _

/-! ## The sections in a row -/

/-- The records of the sections lie one behind the other. -/
inductive Laid (msg : Message) (own : RrSection → List (Nat × Resource)) :
    Nat → List RrSection → Prop where
  | nil (place : Nat) : Laid msg own place []
  | cons {place next : Nat} {sec : RrSection} {later : List RrSection}
      (here : Consecutive (ResourceAt msg) place (own sec) next)
      (behind : Laid msg own next later) : Laid msg own place (sec :: later)

/-- What is recorded while the sections are read, from a cursor on. -/
def sectionEvents (msg : Message) (granted : RrSection → Nat → RrGrants)
    (count : RrSection → Nat) : List RrSection → Nat → List Event
  | [], _ => []
  | sec :: later, ptr =>
      let loop := recordLoop msg sec (granted sec) (min (count sec) sec.limit) 0 ptr
      log loop ++ sectionEvents msg granted count later (value loop).1

/-- Reading a section of a message stores nothing if the cursor stands at a place. -/
def Idle (msg : Message) (granted : RrSection → Nat → RrGrants)
    (own : RrSection → List (Nat × Resource)) (place : Nat) (sec : RrSection) : Prop :=
  own sec = [] ∨ ∀ rr next, ResourceAt msg place rr next → ¬ (granted sec 0).Stores rr

/-- Once a section is cut, all later ones are idle at the place of the cut. -/
def InPlace (msg : Message) (granted : RrSection → Nat → RrGrants)
    (own : RrSection → List (Nat × Resource)) : Option Nat → List RrSection → Prop
  | some place, later => ∀ sec ∈ later, Idle msg granted own place sec
  | none, [] => True
  | none, sec :: later =>
      InPlace msg granted own
        ((notStored (granted sec) sec.limit 0 (own sec)).head?.map Prod.fst) later

section Rows

variable {msg : Message} {granted : RrSection → Nat → RrGrants}
variable {own : RrSection → List (Nat × Resource)}

theorem RrSection.limit_pos (sec : RrSection) : ∃ fewer, sec.limit = fewer + 1 := by
  cases sec <;> exact ⟨_, rfl⟩

/-- Nothing is filed under a section that is not read. -/
theorem filedIn_sectionEvents {other : RrSection} {count : RrSection → Nat}
    {secs : List RrSection} {ptr : Nat} (inside : msg.packet ≤ ptr) (absent : other ∉ secs) :
    filedIn other (sectionEvents msg granted count secs ptr) = [] := by
  induction secs generalizing ptr with
  | nil => rfl
  | cons sec later ih =>
      rw [List.mem_cons, not_or] at absent
      have moved := (recordLoop_always sec (granted sec) (min (count sec) sec.limit) 0 inside).2
      have files := @recordLoop_files msg sec (granted sec) ptr (min (count sec) sec.limit) 0
        inside
      rw [sectionEvents, filedIn_append, files.2.1 other absent.1, ih moved absent.2]
      rfl

/-- Every section after the first gets what the rest of the reading files. -/
theorem prefixes_cons {events rest : List Event} {sec : RrSection} {later : List RrSection}
    (only : ∀ other, other ≠ sec → filedIn other events = []) (absent : sec ∉ later)
    (none_later : filedIn sec rest = []) :
    (∀ sec' ∈ sec :: later, filedIn sec' (events ++ rest) <+: own sec') ↔
      filedIn sec events <+: own sec ∧ ∀ sec' ∈ later, filedIn sec' rest <+: own sec' := by
  rw [List.forall_mem_cons, filedIn_append, none_later, List.append_nil]
  refine and_congr_right fun _ => forall₂_congr fun sec' member => ?_
  have different : sec' ≠ sec := fun same => absent (same ▸ member)
  rw [filedIn_append, only sec' different, List.nil_append]

/-- An idle section leaves the cursor where it is and files nothing. -/
theorem Idle.loop {place : Nat} {sec : RrSection} (idle : Idle msg granted own place sec)
    (inside : msg.packet ≤ place) :
    let loop := recordLoop msg sec (granted sec) (min (own sec).length sec.limit) 0 place
    (value loop).1 = place ∧ filedIn sec (log loop) = [] := by
  rcases idle with empty | refused
  · rw [empty]
    exact ⟨rfl, rfl⟩
  · have failed : value (parseDnsRr msg place (granted sec 0)) = none := by
      cases parsed : value (parseDnsRr msg place (granted sec 0)) with
      | none => rfl
      | some result =>
          obtain ⟨stores, there⟩ := resourceAt_of_parse parsed
          exact absurd stores (refused _ _ there)
    obtain ⟨stopped, reads⟩ :=
      recordLoop_stops sec (min (own sec).length sec.limit) 0 failed
    dsimp only
    rw [stopped]
    exact ⟨rfl, filedIn_of_reads sec (reads inside)⟩

/-- A section that is not idle at a place before its own start stores a record from there,
which is not its own. -/
theorem Idle.of_prefix {place start finish : Nat} {sec : RrSection}
    (laid : Consecutive (ResourceAt msg) start (own sec) finish) (before : place < start)
    (inside : msg.packet ≤ place)
    (filed : filedIn sec (log (recordLoop msg sec (granted sec)
      (min (own sec).length sec.limit) 0 place)) <+: own sec) :
    Idle msg granted own place sec := by
  obtain ⟨fewer, limit⟩ := sec.limit_pos
  generalize same : own sec = entries at laid filed
  cases laid with
  | nil _ => exact .inl same
  | @cons _ next _ rr rest here behind =>
      refine .inr fun sent after there stores => ?_
      obtain ⟨stored, parsed, -⟩ := there.parse stores
      rw [List.length_cons, limit, Nat.succ_min_succ,
        (recordLoop_stores sec (min rest.length fewer) 0 parsed).2, filedIn_append,
        filedIn_of_reads sec (parseDnsRr_bounded inside _).always, List.nil_append,
        filedIn_record, List.cons_prefix_cons] at filed
      have moved : place = start := congrArg Prod.fst filed.1
      omega

/-- With the cursor before all sections that are left, nothing is misfiled exactly if all of
them are idle there. -/
theorem sectionEvents_lost {secs : List RrSection} {start place : Nat}
    (laid : Laid msg own start secs) (distinct : secs.Nodup) (inside : msg.packet ≤ place)
    (before : place < start) :
    (∀ sec ∈ secs, filedIn sec (sectionEvents msg granted (fun sec => (own sec).length) secs
        place) <+: own sec) ↔
      ∀ sec ∈ secs, Idle msg granted own place sec := by
  induction laid with
  | nil _ => exact ⟨fun _ _ member => absurd member List.not_mem_nil,
      fun _ _ member => absurd member List.not_mem_nil⟩
  | @cons start next sec later here behind ih =>
      obtain ⟨absent, distinct⟩ := List.nodup_cons.mp distinct
      have onward := here.le ResourceAt.next_gt
      have files := @recordLoop_files msg sec (granted sec) place
        (min (own sec).length sec.limit) 0 inside
      have moved := (recordLoop_always sec (granted sec)
        (min (own sec).length sec.limit) 0 inside).2
      rw [sectionEvents, prefixes_cons files.2.1 absent (filedIn_sectionEvents moved absent),
        List.forall_mem_cons]
      constructor
      · rintro ⟨here_filed, later_filed⟩
        have idle := Idle.of_prefix here before inside here_filed
        rw [(idle.loop inside).1] at later_filed
        exact ⟨idle, (ih distinct (by omega)).mp later_filed⟩
      · rintro ⟨idle, later_idle⟩
        rw [(idle.loop inside).1, (idle.loop inside).2]
        exact ⟨List.nil_prefix, (ih distinct (by omega)).mpr later_idle⟩

/-- With the cursor at the first of the sections, nothing is misfiled exactly if the first
cut leaves the later ones idle. -/
theorem sectionEvents_home {secs : List RrSection} {start : Nat}
    (laid : Laid msg own start secs) (distinct : secs.Nodup) (inside : msg.packet ≤ start) :
    (∀ sec ∈ secs, filedIn sec (sectionEvents msg granted (fun sec => (own sec).length) secs
        start) <+: own sec) ↔ InPlace msg granted own none secs := by
  induction laid with
  | nil _ => exact ⟨fun _ => trivial, fun _ _ member => absurd member List.not_mem_nil⟩
  | @cons start next sec later here behind ih =>
      obtain ⟨absent, distinct⟩ := List.nodup_cons.mp distinct
      have onward := here.le ResourceAt.next_gt
      have files := @recordLoop_files msg sec (granted sec) start
        (min (own sec).length sec.limit) 0 inside
      have moved := (recordLoop_always sec (granted sec)
        (min (own sec).length sec.limit) 0 inside).2
      obtain ⟨filed, cursor⟩ :=
        recordLoop_home sec here inside sec.limit 0
      rw [sectionEvents, prefixes_cons files.2.1 absent (filedIn_sectionEvents moved absent),
        and_iff_right ⟨_, filed⟩, cursor, InPlace]
      cases cut : (notStored (granted sec) sec.limit 0 (own sec)).head?.map Prod.fst with
      | none => exact ih distinct (by omega)
      | some place =>
          obtain ⟨after, before⟩ :=
            here.suffix ResourceAt.next_gt (notStored_suffix _ _ _ _) cut
          rw [Option.getD_some, sectionEvents_lost behind distinct (by omega) before, InPlace]

end Rows

/-! ## Questions -/

section Questions

variable {msg : Message} {granted : Nat → QuestionGrants} {ptr : Nat}

theorem questionLoop_stores (left index : Nat) (conn : DnsConn) {taken : Nat} {q : DnsQuestion}
    (parsed : value (parseDnsQuestion msg ptr (granted index)) = some (taken, q)) :
    let rest := questionLoop msg granted left (index + 1) (ptr + taken)
      (conn.checkName (q.qname.getD []))
    (value (questionLoop msg granted (left + 1) index ptr conn)).2 =
        (value rest).2.map (fun (ptr, qs) => (ptr, q :: qs)) ∧
      log (questionLoop msg granted (left + 1) index ptr conn) =
        log (parseDnsQuestion msg ptr (granted index)) ++
          .question ptr (ptr + taken) q :: log rest := by
  constructor
  · rw [questionLoop, value_bind, parsed]
    rfl
  · rw [questionLoop, log_bind, parsed]
    simp only [log_bind, log_record, log_pure, List.append_nil, List.singleton_append]

/-- The loop over the questions stores those at the start of the section, up to its limit,
and stops behind them. -/
theorem questionLoop_home {entries : List (Nat × Question)} {finish : Nat}
    (laid : Consecutive (QuestionAt msg) ptr entries finish) (inside : msg.packet ≤ ptr)
    (left index : Nat) (conn : DnsConn) {after : Nat} {questions : List DnsQuestion}
    (finished : (value (questionLoop msg granted (min entries.length left) index ptr
      conn)).2 = some (after, questions)) :
    let events := log (questionLoop msg granted (min entries.length left) index ptr conn)
    askedIn events = entries.take left ∧
      questions.map DnsQuestion.asSent = (askedIn events).map Prod.snd ∧
      (∀ sec, filedIn sec events = []) ∧
      after = ((entries.drop left).head?.map Prod.fst).getD finish := by
  induction laid generalizing left index conn questions with
  | nil place =>
      rw [List.length_nil, Nat.zero_min] at finished ⊢
      obtain ⟨rfl, rfl⟩ := Prod.mk.inj (Option.some.inj finished)
      rw [List.take_nil, List.drop_nil]
      exact ⟨rfl, rfl, fun _ => rfl, rfl⟩
  | @cons place next finish q rest here behind ih =>
      cases left with
      | zero =>
          obtain ⟨rfl, rfl⟩ := Prod.mk.inj (Option.some.inj finished)
          exact ⟨rfl, rfl, fun _ => rfl, rfl⟩
      | succ left =>
          rw [List.length_cons, Nat.succ_min_succ] at finished ⊢
          cases parsed : value (parseDnsQuestion msg place (granted index)) with
          | none =>
              rw [questionLoop, value_bind, parsed] at finished
              cases finished
          | some result =>
              obtain ⟨taken, stored⟩ := result
              obtain ⟨all, there⟩ := questionAt_of_parse parsed
              obtain ⟨found, asked, same⟩ := here.parse all
              rw [parsed] at asked
              obtain ⟨rfl, rfl⟩ := Prod.mk.inj (Option.some.inj asked)
              have forward := here.next_gt
              have moved : place + (next - place) = next := by omega
              obtain ⟨values, events⟩ :=
                questionLoop_stores (min rest.length left) index conn parsed
              have reads := (parseDnsQuestion_bounded inside (granted index)).always
              rw [moved] at values events
              rw [values, Option.map_eq_some_iff] at finished
              obtain ⟨⟨reached, later⟩, finished, last⟩ := finished
              obtain ⟨rfl, rfl⟩ := Prod.mk.inj last
              obtain ⟨prefixed, contents, unfiled, cursor⟩ :=
                ih (by omega) left (index + 1) _ finished
              dsimp only
              rw [events, askedIn_append, askedIn_of_reads reads, List.nil_append,
                askedIn_question, same, prefixed, List.take_succ_cons, List.map_cons,
                List.map_cons, same, contents, prefixed]
              refine ⟨rfl, rfl, fun sec => ?_, cursor⟩
              rw [filedIn_append, filedIn_of_reads sec reads, filedIn_question, unfiled sec]
              rfl

end Questions

/-! ## The whole message -/

/-- The sections of a message, with the places of their entries. -/
structure Sections where
  questions : List (Nat × Question)
  records : RrSection → List (Nat × Resource)

/-- The number of records of a section, as the header gives it. -/
def Message.count (msg : Message) : RrSection → BitVec 16
  | .answer => word msg.memory (msg.packet + 6)
  | .authority => word msg.memory (msg.packet + 8)
  | .additional => word msg.memory (msg.packet + 10)

/-- The sections in the order in which they lie. -/
def RrSection.all : List RrSection := [.answer, .authority, .additional]

/-- A response is well formed: its sections lie behind the header one after the other, each
with the number of entries that the header gives. -/
structure Message.Holds (msg : Message) (own : Sections) : Prop where
  response : word msg.memory (msg.packet + 2) &&& DNS_FLAG_QR ≠ 0
  questions : own.questions.length = (word msg.memory (msg.packet + 4)).toNat
  records : ∀ sec, (own.records sec).length = (msg.count sec).toNat
  laid : ∃ behind,
    Consecutive (QuestionAt msg) (msg.packet + DNS_HEADER_SIZE) own.questions behind ∧
      Laid msg own.records behind RrSection.all

/-- The records of a section that a transaction stores. -/
def DnsTransaction.records (tx : DnsTransaction) : RrSection → List DnsRr
  | .answer => tx.answers
  | .authority => tx.authority
  | .additional => tx.additional

/-- What a call records. -/
def ParseCall.events (call : ParseCall) (conn : DnsConn) : List Event :=
  log (dnsParserParse call.granted conn call.data call.len call.isTcp)

/-- The call adds a transaction that stores, in each of its lists, the first of the
message's own entries of that section. -/
structure ParseCall.Files (call : ParseCall) (conn : DnsConn) (own : Sections) : Prop where
  stored : ∃ tx, (call.run conn).2.transactions = tx :: conn.transactions ∧
    tx.questions.map DnsQuestion.asSent = (askedIn (call.events conn)).map Prod.snd ∧
    ∀ sec, (tx.records sec).map DnsRr.asSent = (filedIn sec (call.events conn)).map Prod.snd
  questions : askedIn (call.events conn) <+: own.questions
  records : ∀ sec, filedIn sec (call.events conn) <+: own.records sec

/-- The first section that is not stored in full, if there is one, leaves the later ones
nothing to store. -/
def ParseCall.InPlace (call : ParseCall) (own : Sections) : Prop :=
  DnsParser.InPlace call.message call.granted.rr own.records
    ((own.questions.drop MAX_QUESTIONS).head?.map Prod.fst) RrSection.all


section Whole

variable {msg : Message}

/-- The lists that the three loops give are what they file, and they store no question. -/
theorem parseRecords_files (granted : Grants) (tx : DnsTransaction) {ptr : Nat}
    (inside : msg.packet ≤ ptr) :
    let records := value (parseRecords msg granted tx ptr)
    let events := log (parseRecords msg granted tx ptr)
    records.1.map DnsRr.asSent = (filedIn .answer events).map Prod.snd ∧
      records.2.1.map DnsRr.asSent = (filedIn .authority events).map Prod.snd ∧
      records.2.2.map DnsRr.asSent = (filedIn .additional events).map Prod.snd ∧
      askedIn events = [] := by
  dsimp only
  obtain ⟨answers, notAnswers, unasked⟩ := @recordLoop_files msg .answer
    (granted.rr .answer) ptr (min tx.ancount.toNat RrSection.answer.limit) 0 inside
  have moved := (recordLoop_always .answer (granted.rr .answer)
    (min tx.ancount.toNat RrSection.answer.limit) 0 inside).2
  obtain ⟨authority, notAuthority, unasked'⟩ := @recordLoop_files msg .authority
    (granted.rr .authority) _ (min tx.nscount.toNat RrSection.authority.limit) 0 moved
  have moved' := (recordLoop_always .authority (granted.rr .authority)
    (min tx.nscount.toNat RrSection.authority.limit) 0 moved).2
  obtain ⟨additional, notAdditional, unasked''⟩ := @recordLoop_files msg .additional
    (granted.rr .additional) _ (min tx.arcount.toNat RrSection.additional.limit) 0
    moved'
  simp only [parseRecords, value_bind, value_pure, log_bind, log_pure, filedIn_append,
    askedIn_append, answers, authority, additional, unasked, unasked', unasked'',
    notAnswers _ (by decide : RrSection.authority ≠ .answer),
    notAnswers _ (by decide : RrSection.additional ≠ .answer),
    notAuthority _ (by decide : RrSection.answer ≠ .authority),
    notAuthority _ (by decide : RrSection.additional ≠ .authority),
    notAdditional _ (by decide : RrSection.answer ≠ .additional),
    notAdditional _ (by decide : RrSection.authority ≠ .additional)]
  simp [filedIn, askedIn]

/-- A response of which all questions parse is stored with its records. -/
theorem parseMessage_response (granted : Grants) (conn : DnsConn)
    (header : DNS_HEADER_SIZE ≤ msg.packetLen) (allocated : granted.tx = true)
    (response : word msg.memory (msg.packet + 2) &&& DNS_FLAG_QR ≠ 0) :
    let tx := value (parseHeader msg)
    let questions := questionLoop msg granted.question msg.asked 0
      (msg.packet + DNS_HEADER_SIZE) (conn.countMessage tx)
    (value (parseMessage granted conn msg)).1 = 0 →
      ∃ after stored,
        (value questions).2 = some (after, stored) ∧
        let records := value (parseRecords msg granted { tx with questions := stored } after)
        (value (parseMessage granted conn msg)).2.transactions =
          { tx with
            questions := stored, answers := records.1, authority := records.2.1,
            additional := records.2.2 } :: (value questions).1.transactions ∧
        log (parseMessage granted conn msg) =
          log (parseHeader msg) ++ (log questions ++
            log (parseRecords msg granted { tx with questions := stored } after)) := by
  have granted_tx : ¬ (!granted.tx) = true := by simp [allocated]
  have count : min (value (parseHeader msg)).qdcount.toNat MAX_QUESTIONS = msg.asked := rfl
  have isResponse : (value (parseHeader msg)).isResponse = true := decide_eq_true response
  dsimp only
  rw [parseMessage, if_neg (Nat.not_lt.mpr header), value_bind, log_bind, if_neg granted_tx,
    value_bind, log_bind, count]
  intro accepted
  cases asked : value (questionLoop msg granted.question msg.asked 0
      (msg.packet + DNS_HEADER_SIZE) (conn.countMessage (value (parseHeader msg)))) with
  | mk counted result =>
      rw [asked] at accepted
      cases result with
      | none =>
          have failed : (-1 : Int) = 0 := accepted
          exact absurd failed (by decide)
      | some result =>
          obtain ⟨after, stored⟩ := result
          refine ⟨after, stored, rfl, ?_⟩
          dsimp only
          rw [if_pos isResponse, value_bind, log_bind, value_pure, log_pure, List.append_nil]
          have unchanged (rrs : List DnsRr) :
              (rrs.foldl DnsConn.countRecord counted).transactions = counted.transactions :=
            congrArg Prod.fst (counts_foldl_countRecord rrs counted)
          exact ⟨congrArg _ (unchanged _), rfl⟩

/-- What an accepted response files, and when it files nothing wrong. -/
theorem parseMessage_files_iff (granted : Grants) (conn : DnsConn) {own : Sections}
    (holds : msg.Holds own) (accepted : (value (parseMessage granted conn msg)).1 = 0) :
    let events := log (parseMessage granted conn msg)
    (∃ tx, (value (parseMessage granted conn msg)).2.transactions = tx :: conn.transactions ∧
        tx.questions.map DnsQuestion.asSent = (askedIn events).map Prod.snd ∧
        ∀ sec, (tx.records sec).map DnsRr.asSent = (filedIn sec events).map Prod.snd) ∧
      askedIn events <+: own.questions ∧
      ((∀ sec, filedIn sec events <+: own.records sec) ↔
        InPlace msg granted.rr own.records
          ((own.questions.drop MAX_QUESTIONS).head?.map Prod.fst) RrSection.all) := by
  obtain ⟨header, allocated⟩ : DNS_HEADER_SIZE ≤ msg.packetLen ∧ granted.tx = true := by
    by_contra unopened
    rw [parseMessage_unopened conn unopened] at accepted
    have failed : (-1 : Int) = 0 := accepted
    exact absurd failed (by decide)
  obtain ⟨after, stored, finished, transactions, events⟩ :=
    parseMessage_response granted conn header allocated holds.response accepted
  obtain ⟨behind, asked_laid, laid⟩ := holds.laid
  have start : msg.packet ≤ msg.packet + DNS_HEADER_SIZE := Nat.le_add_right _ _
  have asked : msg.asked = min own.questions.length MAX_QUESTIONS := by
    rw [Message.asked, holds.questions]
  have unchanged := congrArg Prod.fst (@questionLoop_counts msg granted.question msg.asked 0
    (msg.packet + DNS_HEADER_SIZE) (conn.countMessage (value (parseHeader msg))))
  rw [counts_countMessage] at unchanged
  have headerReads := parseHeader_always header
  rw [asked] at finished
  obtain ⟨prefixed, contents, unfiled, cursor⟩ :=
    questionLoop_home asked_laid start MAX_QUESTIONS 0 _ finished
  rw [← asked] at finished prefixed contents unfiled
  have inside := questionLoop_cursor granted.question start finished
  obtain ⟨answers, authority, additional, unasked⟩ := parseRecords_files granted
    { value (parseHeader msg) with questions := stored } inside
  dsimp only
  rw [events, askedIn_append, askedIn_append, askedIn_of_reads headerReads, unasked,
    List.nil_append, List.append_nil]
  have filed (sec : RrSection) : filedIn sec (log (parseHeader msg) ++
      (log (questionLoop msg granted.question msg.asked 0 (msg.packet + DNS_HEADER_SIZE)
        (conn.countMessage (value (parseHeader msg)))) ++
        log (parseRecords msg granted
          { value (parseHeader msg) with questions := stored } after))) =
      filedIn sec (log (parseRecords msg granted
        { value (parseHeader msg) with questions := stored } after)) := by
    rw [filedIn_append, filedIn_append, filedIn_of_reads sec headerReads, unfiled sec]
    rfl
  simp only [filed]
  refine ⟨⟨_, transactions.trans (congrArg _ unchanged), contents, fun sec => ?_⟩, ?_, ?_⟩
  · cases sec with
    | answer => exact answers
    | authority => exact authority
    | additional => exact additional
  · rw [prefixed]
    exact List.take_prefix _ _
  · have count : (fun sec => (own.records sec).length) = fun sec => (msg.count sec).toNat :=
      funext holds.records
    have rows : log (parseRecords msg granted
        { value (parseHeader msg) with questions := stored } after) =
        sectionEvents msg granted.rr (fun sec => (own.records sec).length) RrSection.all
          after := by
      rw [count]
      rfl
    have all (P : RrSection → Prop) : (∀ sec, P sec) ↔ ∀ sec ∈ RrSection.all, P sec :=
      ⟨fun holds sec _ => holds sec, fun holds sec => holds sec (by cases sec <;> decide)⟩
    rw [rows, all, cursor]
    cases cut : (own.questions.drop MAX_QUESTIONS).head?.map Prod.fst with
    | none =>
        have onward := asked_laid.le QuestionAt.next_gt
        exact sectionEvents_home laid (by decide) (Nat.le_trans start onward)
    | some place =>
        obtain ⟨after, before⟩ :=
          asked_laid.suffix QuestionAt.next_gt (List.drop_suffix _ _) cut
        exact sectionEvents_lost laid (by decide) (Nat.le_trans start after) before

end Whole

theorem ParseCall.events_delivered (call : ParseCall) (conn : DnsConn)
    (delivers : call.Delivers) :
    askedIn (call.events conn) =
        askedIn (log (parseMessage call.granted conn call.message)) ∧
      ∀ sec, filedIn sec (call.events conn) =
        filedIn sec (log (parseMessage call.granted conn call.message)) := by
  obtain ⟨granted, data, len, isTcp⟩ := call
  cases isTcp with
  | false => exact ⟨rfl, fun _ => rfl⟩
  | true =>
      have long : 2 ≤ len := delivers.1 rfl
      have whole : 2 + (value (wordAt data 0)).toNat ≤ len := delivers.2
      have fits : ¬ len - 2 < (value (wordAt data 0)).toNat := by omega
      have events : ParseCall.events ⟨granted, data, len, true⟩ conn =
          log (wordAt data 0) ++ log (parseMessage granted conn
            (messageOf data len true)) := by
        rw [ParseCall.events, dnsParserParse, if_pos rfl, if_neg (Nat.not_lt.mpr long),
          log_bind, if_neg fits]
        rfl
      rw [events]
      exact ⟨askedIn_append _ _, fun sec => filedIn_append sec _ _⟩

/-- In a well-formed response that is accepted, the stored lists are the first entries of
the message's own sections, if and only if the first section that is not stored in full, if
there is one, leaves nothing to store to the later ones. -/
theorem sections_stored_in_place_iff (call : ParseCall) (conn : DnsConn) (own : Sections)
    (holds : call.message.Holds own) (accepted : (call.run conn).1 = 0) :
    call.Files conn own ↔ call.InPlace own := by
  have delivers : call.Delivers := by
    by_contra undelivered
    rw [call.run_undelivered conn undelivered] at accepted
    have failed : (-1 : Int) = 0 := accepted
    exact absurd failed (by decide)
  rw [call.run_delivered conn delivers] at accepted
  obtain ⟨stored, asked, filed⟩ := parseMessage_files_iff call.granted conn holds accepted
  obtain ⟨questions, records⟩ := call.events_delivered conn delivers
  simp only [← questions, ← records] at stored asked filed
  constructor
  · intro files
    exact filed.mp files.records
  · intro inPlace
    exact ⟨call.run_delivered conn delivers ▸ stored, asked, filed.mpr inPlace⟩

/-- A response to a question about the root, with one answer. -/
def rootResponse : ParseCall where
  data := fun offset =>
    ([0, 1, 0x80, 0, 0, 1, 0, 1, 0, 0, 0, 0, 0, 0, 1, 0, 1,
      0, 0, 1, 0, 1, 0, 0, 0, 60, 0, 4, 192, 0, 2, 1] : Bytes).getD offset 0
  len := 32

/-- The sections of the response. -/
def rootSections : Sections where
  questions := [(12, ⟨[], 1, 1⟩)]
  records
    | .answer => [(17, ⟨[], 1, 1, 60, [192, 0, 2, 1]⟩)]
    | .authority | .additional => []

/-- The question and the answer are both stored. -/
theorem root_response_stored : rootResponse.Files {} rootSections := by
  have question : QuestionAt rootResponse.message 12 ⟨[], 1, 1⟩ 17 := by
    have parsed : value (parseDnsQuestion rootResponse.message 12 {}) =
        some (5, { qname := some [], qtype := 1, qnameLen := 0, qclass := 1 }) := by
      decide +kernel
    exact (questionAt_of_parse parsed).2
  have answer : ResourceAt rootResponse.message 17 ⟨[], 1, 1, 60, [192, 0, 2, 1]⟩ 32 := by
    have parsed : value (parseDnsRr rootResponse.message 17 {}) =
        some (15, ⟨[], 0, 1, 1, 60, 4, some [192, 0, 2, 1], .a [192, 0, 2, 1]⟩) := by
      decide +kernel
    exact (resourceAt_of_parse parsed).2
  have holds : rootResponse.message.Holds rootSections := by
    refine ⟨by decide +kernel, by decide +kernel, fun sec => ?_, 17,
      .cons question (.nil 17), ?_⟩
    · cases sec <;> decide +kernel
    · exact .cons (.cons answer (.nil 32)) (.cons (.nil 32) (.cons (.nil 32) (.nil 32)))
  exact (sections_stored_in_place_iff rootResponse {} rootSections holds
    (by decide +kernel)).mpr trivial

/-! ## Twenty-one answers -/

/-- Entries of one size lie one behind the other. -/
theorem consecutive_map {α : Type} {At : Nat → α → Nat → Prop} {start size : Nat}
    {entry : Nat → α} (count index : Nat)
    (each : ∀ offset, index ≤ offset → offset < index + count →
      At (start + size * offset) (entry offset) (start + size * (offset + 1))) :
    Consecutive At (start + size * index)
      ((List.range' index count).map fun offset => (start + size * offset, entry offset))
      (start + size * (index + count)) := by
  induction count generalizing index with
  | zero => exact .nil _
  | succ count ih =>
      rw [List.range'_succ, List.map_cons]
      refine .cons (each index (Nat.le_refl index) (by omega)) ?_
      have behind := ih (index + 1) fun offset after before =>
        each offset (by omega) (by omega)
      rwa [Nat.add_right_comm] at behind

/-- A response of twenty-one answers without data and one record of the authority section,
which is of type NS. -/
def longResponse : ParseCall where
  data := fun offset =>
    if offset = 2 then 0x80
    else if offset = 7 then 21
    else if offset = 9 then 1
    else if offset = 245 then 2
    else 0
  len := 254

/-- The sections of the response. -/
def longSections : Sections where
  questions := []
  records
    | .answer => (List.range' 0 21).map fun index => (12 + 11 * index, ⟨[], 0, 0, 0, []⟩)
    | .authority => [(243, ⟨[], DNS_TYPE_NS, 0, 0, []⟩)]
    | .additional => []

/-- The response is well formed and is accepted, and the twenty-first answer is stored as the
authority section. -/
theorem answer_stored_as_authority :
    longResponse.message.Holds longSections ∧ (longResponse.run {}).1 = 0 ∧
      ∃ tx ∈ (longResponse.run {}).2.transactions,
        ¬ tx.authority.map DnsRr.asSent <+: (longSections.records .authority).map Prod.snd := by
  refine ⟨⟨by decide +kernel, by decide +kernel, fun sec => ?_, 12, .nil 12, ?_⟩,
    by decide +kernel, by decide +kernel⟩
  · cases sec <;> decide +kernel
  · have answers : ∀ offset < 21,
        value (parseDnsRr longResponse.message (12 + 11 * offset) {}) =
          some (11, ⟨[], 0, 0, 0, 0, 0, none, .zero⟩) := by decide +kernel
    have authority : value (parseDnsRr longResponse.message 243 {}) =
        some (11, ⟨[], 0, DNS_TYPE_NS, 0, 0, 0, none, .zero⟩) := by decide +kernel
    have laid := @consecutive_map _ (ResourceAt longResponse.message) 12 11
      (fun _ => ⟨[], 0, 0, 0, []⟩) 21 0 fun offset _ below =>
        (resourceAt_of_parse (answers offset (by omega))).2
    exact .cons laid
      (.cons (.cons (resourceAt_of_parse authority).2 (.nil 254)) (.cons (.nil 254) (.nil 254)))

end NetDefender.DnsParser
