import NetDefender.Config.Ranges

/-!
# Reloading

`cfgfile.c`: the configuration is loaded at the start, and again by the master lcore when a
`SIGHUP` has come.  As most keywords have no handler then, a file that is loaded again does not
set what it says.
-/

namespace NetDefender.Config

open CString Netif

variable {alloc : Nat → Option Stale} {maxLcore : Nat} {Dir : Type} {files : Files Dir}
  {depth : Nat} {dir : Dir} {confFile : Bytes} {state : NetdefenderState} {conf conf' : Conf}

/-! ## Ranges -/

/-- All values but the interval are in range. -/
def Conf.Sound (maxLcore : Nat) (conf : Conf) : Prop :=
  ({ conf with schedInterval := TIMER_SCHED_INTERVAL_DEF } : Conf).InRange maxLcore

theorem interval_default : TIMER_SCHED_INTERVAL_MIN ≤ TIMER_SCHED_INTERVAL_DEF ∧
    TIMER_SCHED_INTERVAL_DEF ≤ TIMER_SCHED_INTERVAL_MAX := by
  decide

theorem pool_default : IsPower 10 27 (NETIF_PKTPOOL_NB_MBUF_DEF + 1) :=
  ⟨16, by decide, by decide, by decide⟩

theorem cache_default : IsPower 5 13 NETIF_PKTPOOL_MBUF_CACHE_DEF :=
  ⟨8, by decide, by decide, by decide⟩

theorem Conf.InRange.sound (inRange : conf.InRange maxLcore) : conf.Sound maxLcore :=
  { inRange with schedInterval := interval_default }

theorem sound_empty : Conf.Sound maxLcore {} where
  pktpoolNbMbuf := pool_default
  pktpoolMbufCache := cache_default
  schedInterval := interval_default
  devices := by simp
  ports := by simp

theorem keywordValueInit_inRange (sound : conf.Sound maxLcore) :
    (keywordValueInit state conf).InRange maxLcore := by
  rw [keywordValueInit]
  split
  next =>
    exact { sound with pktpoolNbMbuf := pool_default, pktpoolMbufCache := cache_default }
  next => exact sound

theorem foldlM_inRange {nodes : List KeywordNode} {called : List Call}
    (inRange : conf.InRange maxLcore)
    (done : called.foldlM (Call.run alloc maxLcore nodes) conf = some conf') :
    conf'.InRange maxLcore := by
  induction called generalizing conf with
  | nil =>
      cases done
      exact inRange
  | cons call more ih =>
      obtain ⟨middle, ran, rest⟩ := Option.bind_eq_some_iff.mp done
      obtain ⟨handler, -, ran⟩ := Option.bind_eq_some_iff.mp ran
      exact ih (run_inRange inRange ran) rest

/-- The calls that a load makes. -/
theorem loadConfFile_calls
    (loaded : loadConfFile alloc maxLcore files depth dir confFile state conf = some conf') :
    ∃ called : List Call, called.foldlM (Call.run alloc maxLcore (configKeywords state))
      (keywordValueInit state conf) = some conf' := by
  rw [loadConfFile, initData, installKeywords_eq, Option.bind_eq_bind, Option.bind_some] at loaded
  obtain ⟨called, -, done⟩ := Option.bind_eq_some_iff.mp loaded
  exact ⟨called, done⟩

theorem load_inRange (sound : conf.Sound maxLcore)
    (loaded : loadConfFile alloc maxLcore files depth dir confFile state conf = some conf') :
    conf'.InRange maxLcore := by
  obtain ⟨called, done⟩ := loadConfFile_calls loaded
  exact foldlM_inRange (keywordValueInit_inRange sound) done

/-! ## Behind the initialization stage -/

/-- A configuration of which lists have been cleared, and with another interval. -/
def Conf.forget (conf : Conf) (devices workers : Bool) (interval : Int) : Conf :=
  { conf with
    portList := if devices then [] else conf.portList
    workerList := if workers then [] else conf.workerList
    schedInterval := interval }

theorem forget_forget (devices workers devices' workers' : Bool) (interval interval' : Int) :
    (conf.forget devices workers interval).forget devices' workers' interval' =
      conf.forget (devices || devices') (workers || workers') interval' := by
  cases devices <;> cases workers <;> cases devices' <;> cases workers' <;> rfl

theorem forget_none (interval : Int) :
    conf.forget false false interval = { conf with schedInterval := interval } := rfl

theorem run_forget {call : Call} (later : state ≠ .init)
    (ran : call.run alloc maxLcore (configKeywords state) conf = some conf') :
    ∃ devices workers interval, conf' = conf.forget devices workers interval := by
  obtain ⟨handler, found, ran⟩ := Option.bind_eq_some_iff.mp ran
  have always := (handlerAt_init found).resolve_left later
  cases handler with
  | netifDefs =>
      cases ran
      exact ⟨true, false, conf.schedInterval, rfl⟩
  | workerDefs =>
      cases ran
      exact ⟨false, true, conf.schedInterval, rfl⟩
  | timerSchedInterval =>
      obtain ⟨value, -, done⟩ := Option.bind_eq_some_iff.mp ran
      cases value with
      | none =>
          cases done
          exact ⟨false, false, conf.schedInterval, rfl⟩
      | some str =>
          cases done
          exact ⟨false, false, _, rfl⟩
  | _ => exact absurd always (by decide)

theorem foldlM_forget {called : List Call} (later : state ≠ .init)
    (done : called.foldlM (Call.run alloc maxLcore (configKeywords state)) conf = some conf') :
    ∃ devices workers interval, conf' = conf.forget devices workers interval := by
  induction called generalizing conf with
  | nil =>
      cases done
      exact ⟨false, false, conf'.schedInterval, rfl⟩
  | cons call more ih =>
      obtain ⟨middle, ran, rest⟩ := Option.bind_eq_some_iff.mp done
      obtain ⟨devices, workers, interval, rfl⟩ := run_forget later ran
      obtain ⟨devices', workers', interval', rfl⟩ := ih rest
      exact ⟨_, _, interval', forget_forget ..⟩

/-- A file that is loaded again only clears lists and sets the interval. -/
theorem load_forget (later : state ≠ .init)
    (loaded : loadConfFile alloc maxLcore files depth dir confFile state conf = some conf') :
    ∃ devices workers interval, conf' = conf.forget devices workers interval := by
  obtain ⟨called, done⟩ := loadConfFile_calls loaded
  have begun : keywordValueInit state conf =
      conf.forget false false TIMER_SCHED_INTERVAL_DEF := by
    rw [keywordValueInit, if_neg later]
    rfl
  rw [begun] at done
  obtain ⟨devices, workers, interval, rfl⟩ := foldlM_forget later done
  exact ⟨_, _, interval, forget_forget ..⟩

/-! ## The program -/

/-- The stage, `g_reload` and the configuration. -/
structure Program where
  state : NetdefenderState
  reload : Bool := false
  conf : Conf := {}

/-- A signal comes, or the master lcore comes to its job `cfgfile_reload`, with what the files
say then.  A signal that comes while a file is loaded is one that comes behind, as `g_reload` is
cleared before. -/
inductive Occurrence (Dir : Type) where
  | sighup
  | poll (files : Files Dir) (depth : Nat)

section Program

variable (alloc maxLcore) (dir confFile)

/-- `try_reload`. -/
def tryReload (files : Files Dir) (depth : Nat) (program : Program) : Option Program :=
  if program.reload then do
    let conf ← loadConfFile alloc maxLcore files depth dir confFile program.state program.conf
    return { program with reload := false, conf }
  else some program

/-- `cfgfile_init` up to the registration of its job. -/
def cfgfileInit (files : Files Dir) (depth : Nat) (program : Program) : Option Program :=
  let conf := { program.conf with portList := [], workerList := [] }
  tryReload alloc maxLcore dir confFile files depth { program with reload := true, conf }

/-- What happens to the program. -/
def Occurrence.run (program : Program) : Occurrence Dir → Option Program
  | .sighup => some { program with reload := true }
  | .poll files depth => tryReload alloc maxLcore dir confFile files depth program

end Program

variable {program after begun : Program} {occurrences : List (Occurrence Dir)}

theorem tryReload_cases
    (done : tryReload alloc maxLcore dir confFile files depth program = some after) :
    program.reload = true ∧ after.state = program.state ∧ after.reload = false ∧
        loadConfFile alloc maxLcore files depth dir confFile program.state program.conf =
          some after.conf ∨
      program.reload = false ∧ after = program := by
  rw [tryReload] at done
  split at done
  next pending =>
    obtain ⟨conf, loaded, same⟩ := Option.bind_eq_some_iff.mp done
    cases same
    exact Or.inl ⟨pending, rfl, rfl, loaded⟩
  next idle =>
    cases done
    exact Or.inr ⟨Bool.eq_false_iff.mpr idle, rfl⟩

/-- What is left of a configuration while the program is running. -/
structure Kept (maxLcore : Nat) (begun program : Program) : Prop where
  state : program.state ≠ .init
  inRange : program.conf.InRange maxLcore
  forgets : ∃ devices workers interval, program.conf = begun.conf.forget devices workers interval

theorem Kept.run {occurrence : Occurrence Dir} (kept : Kept maxLcore begun program)
    (ran : occurrence.run alloc maxLcore dir confFile program = some after) :
    Kept maxLcore begun after := by
  cases occurrence with
  | sighup =>
      cases ran
      exact ⟨kept.state, kept.inRange, kept.forgets⟩
  | poll files depth =>
      cases tryReload_cases ran with
      | inl loads =>
          obtain ⟨-, state, -, loaded⟩ := loads
          obtain ⟨devices, workers, interval, before⟩ := kept.forgets
          obtain ⟨devices', workers', interval', now⟩ := load_forget kept.state loaded
          refine ⟨state ▸ kept.state, load_inRange kept.inRange.sound loaded, ?_⟩
          exact ⟨_, _, interval', by rw [now, before, forget_forget]⟩
      | inr idle =>
          rw [idle.2]
          exact kept

/-- In every run behind the start, with any signals and whatever the files say by then, every
value is in range, the memory pool is as configured at the start, and so is each of the lists of
devices and workers, unless it is empty. -/
theorem running_configuration {startFiles : Files Dir} {startDepth : Nat}
    (started : cfgfileInit alloc maxLcore dir confFile startFiles startDepth
      { state := .init } = some begun)
    (ran : occurrences.foldlM (Occurrence.run alloc maxLcore dir confFile)
      { begun with state := .normal } = some after) :
    begun.conf.InRange maxLcore ∧ after.conf.InRange maxLcore ∧
      ∃ devices workers interval, after.conf = begun.conf.forget devices workers interval := by
  have first : begun.conf.InRange maxLcore := by
    cases tryReload_cases started with
    | inl loads => exact load_inRange sound_empty loads.2.2.2
    | inr idle => cases idle.1
  have kept : Kept maxLcore begun { begun with state := .normal } :=
    ⟨by simp, first, false, false, begun.conf.schedInterval, rfl⟩
  suffices all : Kept maxLcore begun after from ⟨first, all.inRange, all.forgets⟩
  generalize ({ begun with state := .normal } : Program) = program at kept ran
  induction occurrences generalizing program with
  | nil =>
      cases ran
      exact kept
  | cons occurrence more ih =>
      obtain ⟨middle, step, rest⟩ := Option.bind_eq_some_iff.mp ran
      exact ih middle (kept.run step) rest

/-- One worker. -/
def oneWorker : Files Unit :=
  oneFile (ascii "worker_defs \x7b\nworker cpu1 \x7b\ncpu_id 1\n\x7d\n\x7d\n")

/-- After a signal the worker is gone, although the file has not changed. -/
theorem oneWorker_forgotten : ∃ begun after,
    cfgfileInit clearMemory 128 () (ascii "f") oneWorker 2 { state := .init } = some begun ∧
      [Occurrence.sighup, .poll oneWorker 2].foldlM
        (Occurrence.run clearMemory 128 () (ascii "f")) { begun with state := .normal } =
          some after ∧
      begun.conf.workerList.length = 1 ∧ after.conf.workerList = [] ∧
      after.conf.InRange 128 := by
  have facts : ((cfgfileInit clearMemory 128 () (ascii "f") oneWorker 2
      { state := .init }).bind fun begun =>
        ([Occurrence.sighup, .poll oneWorker 2].foldlM
          (Occurrence.run clearMemory 128 () (ascii "f"))
          { begun with state := .normal }).map fun after =>
            (begun.conf.workerList.length, after.conf.workerList.isEmpty)) = some (1, true) := by
    decide +kernel
  obtain ⟨begun, started, facts⟩ := Option.bind_eq_some_iff.mp facts
  obtain ⟨after, ran, facts⟩ := Option.map_eq_some_iff.mp facts
  rw [Prod.mk.injEq] at facts
  exact ⟨begun, after, started, ran, facts.1, List.isEmpty_iff.mp facts.2,
    (running_configuration started ran).2.1⟩

end NetDefender.Config
