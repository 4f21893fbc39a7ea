import NetDefender.Timer.Wheel

/-!
# The lists of the wheels

What the list operations do to each slot and each timer, and that they keep the lists
and the nodes of the timers in agreement.
-/

namespace NetDefender.Timers

theorem LEVEL_SIZE_eq : LEVEL_SIZE = 524288 := rfl

@[simp] theorem getLevelTicks_zero : getLevelTicks 0 = 1 := rfl

@[simp] theorem getLevelTicks_one : getLevelTicks 1 = LEVEL_SIZE := rfl

namespace Scheduler

variable (s : Scheduler) (id other level slot left : Nat)

/-! ## Slots and records -/

@[simp]
theorem setTimer_timers (timer : NdfTimer) :
    (s.setTimer id timer).timers other = if other = id then timer else s.timers other :=
  Function.update_apply ..

@[simp]
theorem setTimer_hashs (timer : NdfTimer) : (s.setTimer id timer).hashs = s.hashs := rfl

@[simp]
theorem setTimer_cursors (timer : NdfTimer) :
    (s.setTimer id timer).cursors = s.cursors := rfl

@[simp]
theorem setTimer_ticks (timer : NdfTimer) : (s.setTimer id timer).ticks = s.ticks := rfl

@[simp]
theorem setTimer_log (timer : NdfTimer) : (s.setTimer id timer).log = s.log := rfl

@[simp]
theorem setSlot_hashs (ids : List Nat) (level' slot' : Nat) :
    (s.setSlot level slot ids).hashs level' slot' =
      if level' = level ∧ slot' = slot then ids else s.hashs level' slot' := by
  by_cases sameLevel : level' = level
  · subst sameLevel
    by_cases sameSlot : slot' = slot <;> simp [setSlot, sameSlot]
  · simp [setSlot, sameLevel]

@[simp]
theorem setSlot_timers (ids : List Nat) :
    (s.setSlot level slot ids).timers = s.timers := rfl

@[simp]
theorem setSlot_cursors (ids : List Nat) :
    (s.setSlot level slot ids).cursors = s.cursors := rfl

@[simp]
theorem setSlot_ticks (ids : List Nat) : (s.setSlot level slot ids).ticks = s.ticks := rfl

@[simp]
theorem setSlot_log (ids : List Nat) : (s.setSlot level slot ids).log = s.log := rfl

@[simp]
theorem listAddTail_hashs (level' slot' : Nat) :
    (s.listAddTail id level slot).hashs level' slot' =
      if level' = level ∧ slot' = slot then s.hashs level slot ++ [id]
      else s.hashs level' slot' := by
  simp [listAddTail]

@[simp]
theorem listAddTail_timers :
    (s.listAddTail id level slot).timers other =
      if other = id then { s.timers id with list := some (level, slot) }
      else s.timers other := by
  simp [listAddTail]

@[simp]
theorem listAddTail_cursors : (s.listAddTail id level slot).cursors = s.cursors := rfl

@[simp]
theorem listAddTail_ticks : (s.listAddTail id level slot).ticks = s.ticks := rfl

@[simp]
theorem listAddTail_log : (s.listAddTail id level slot).log = s.log := rfl

theorem listDel_of_none (idle : (s.timers id).list = none) : s.listDel id = s := by
  simp [listDel, idle]

theorem listDel_of_some (pending : (s.timers id).list = some (level, slot)) :
    s.listDel id =
      (s.setSlot level slot ((s.hashs level slot).erase id)).setTimer id
        { s.timers id with list := none } := by
  simp [listDel, pending]

@[simp]
theorem listDel_timers :
    (s.listDel id).timers other =
      if other = id then { s.timers id with list := none } else s.timers other := by
  cases node : (s.timers id).list with
  | none =>
      rw [listDel_of_none s id node, ← node]
      split
      · next same => rw [same]
      · rfl
  | some place => simp [listDel_of_some s id place.1 place.2 node]

@[simp]
theorem listDel_cursors : (s.listDel id).cursors = s.cursors := by
  simp only [listDel]
  split <;> rfl

@[simp]
theorem listDel_ticks : (s.listDel id).ticks = s.ticks := by
  simp only [listDel]
  split <;> rfl

@[simp]
theorem listDel_log : (s.listDel id).log = s.log := by
  simp only [listDel]
  split <;> rfl

/-- `list_del` is harmless on a node that is on no list. -/
theorem unlink_eq_listDel : s.unlink id = s.listDel id := by
  cases node : (s.timers id).list with
  | none => simp [unlink, timerPending, node, listDel_of_none]
  | some place => simp [unlink, timerPending, node]

/-! ## Lists and nodes agree -/

/-- A timer is on the list of a slot exactly when its node says so, and only once. -/
structure Linked (s : Scheduler) : Prop where
  mem : ∀ level slot id,
    id ∈ s.hashs level slot ↔ (s.timers id).list = some (level, slot)
  nodup : ∀ level slot, (s.hashs level slot).Nodup

variable {s}

theorem Linked.setTimer (linked : Linked s) {timer : NdfTimer}
    (same : timer.list = (s.timers id).list) : Linked (s.setTimer id timer) where
  mem level slot other := by
    rw [setTimer_hashs, setTimer_timers, linked.mem]
    split
    · next at_id => rw [at_id, same]
    · rfl
  nodup := linked.nodup

theorem Linked.listAddTail (linked : Linked s) (idle : (s.timers id).list = none) :
    Linked (s.listAddTail id level slot) where
  mem level' slot' other := by
    rw [listAddTail_hashs, listAddTail_timers]
    have absent : ∀ level slot, id ∉ s.hashs level slot := fun level slot => by
      simp [linked.mem, idle]
    by_cases at_id : other = id
    · subst at_id
      by_cases here : level' = level ∧ slot' = slot
      · simp [here]
      · have elsewhere : ¬ (level = level' ∧ slot = slot') := fun same =>
          here ⟨same.1.symm, same.2.symm⟩
        simp [here, absent, elsewhere]
    · by_cases here : level' = level ∧ slot' = slot
      · simp [here, at_id, linked.mem]
      · simp [here, at_id, linked.mem]
  nodup level' slot' := by
    rw [listAddTail_hashs]
    split
    · have absent : id ∉ s.hashs level slot := by simp [linked.mem, idle]
      exact (linked.nodup level slot).append (List.nodup_singleton id)
        (by simpa using absent)
    · exact linked.nodup level' slot'

theorem Linked.listDel (linked : Linked s) : Linked (s.listDel id) := by
  cases node : (s.timers id).list with
  | none => rwa [listDel_of_none s id node]
  | some place =>
      obtain ⟨level, slot⟩ := place
      rw [listDel_of_some s id level slot node]
      constructor
      · intro level' slot' other
        rw [setTimer_hashs, setTimer_timers, setSlot_hashs, setSlot_timers]
        by_cases at_id : other = id
        · subst at_id
          by_cases here : level' = level ∧ slot' = slot
          · simp [here, (linked.nodup level slot).mem_erase_iff]
          · have elsewhere : ¬ (level = level' ∧ slot = slot') := fun same =>
              here ⟨same.1.symm, same.2.symm⟩
            simp [here, linked.mem, node, elsewhere]
        · by_cases here : level' = level ∧ slot' = slot
          · simp [here, at_id, (linked.nodup level slot).mem_erase_iff, linked.mem]
          · simp [here, at_id, linked.mem]
      · intro level' slot'
        rw [setTimer_hashs, setSlot_hashs]
        split
        · exact (linked.nodup level slot).erase id
        · exact linked.nodup level' slot'

/-- Taking the first timer off a slot leaves the rest of its list. -/
theorem Linked.listDel_head (linked : Linked s) {rest : List Nat}
    (head : s.hashs level slot = id :: rest) :
    (s.listDel id).hashs level slot = rest := by
  have pending : (s.timers id).list = some (level, slot) := by
    rw [← linked.mem, head]
    exact List.mem_cons_self
  rw [listDel_of_some s id level slot pending]
  simp [head]

/-! ## Putting a timer in a slot -/

/-- A timer goes to the end of a slot, with a remainder. -/
def put (s : Scheduler) (id level slot left : Nat) : Scheduler :=
  (s.listAddTail id level slot).setLeft id left

variable (s)

@[simp]
theorem put_timers :
    (s.put id level slot left).timers other =
      if other = id then { s.timers id with list := some (level, slot), left := left }
      else s.timers other := by
  by_cases same : other = id <;> simp [put, setLeft, same]

@[simp]
theorem put_hashs (level' slot' : Nat) :
    (s.put id level slot left).hashs level' slot' =
      if level' = level ∧ slot' = slot then s.hashs level slot ++ [id]
      else s.hashs level' slot' := by
  simp [put, setLeft]

@[simp]
theorem put_cursors : (s.put id level slot left).cursors = s.cursors := rfl

@[simp]
theorem put_ticks : (s.put id level slot left).ticks = s.ticks := rfl

@[simp]
theorem put_log : (s.put id level slot left).log = s.log := rfl

variable {s}

theorem Linked.put (linked : Linked s) (idle : (s.timers id).list = none) :
    Linked (s.put id level slot left) :=
  (linked.listAddTail id level slot idle).setTimer id rfl

/-- A delay of at least one revolution goes to the upper wheel; the remainder also holds
what the lower cursor has done of this revolution. -/
theorem adopt_upper (long : LEVEL_SIZE ≤ (s.timers id).delay) :
    s.adopt id LEVEL_DEPTH =
      (.ok, s.put id 1 ((s.cursors 1 + (s.timers id).delay / LEVEL_SIZE) % LEVEL_SIZE)
        ((s.timers id).left % LEVEL_SIZE + s.cursors 0)) := by
  have off : (s.timers id).delay / LEVEL_SIZE > 0 :=
    Nat.div_pos long (by decide)
  simp [LEVEL_DEPTH, adopt, off, lowerTicks, put]

theorem adopt_lower (short : (s.timers id).delay < LEVEL_SIZE)
    (positive : 0 < (s.timers id).delay) :
    s.adopt id LEVEL_DEPTH =
      (.ok, s.put id 0 ((s.cursors 0 + (s.timers id).delay) % LEVEL_SIZE) 0) := by
  have off : ¬ (s.timers id).delay / LEVEL_SIZE > 0 := by
    rw [Nat.div_eq_of_lt short]
    exact Nat.lt_irrefl 0
  simp [LEVEL_DEPTH, adopt, off, positive, lowerTicks, put, Nat.mod_one]

/-- A timer of the upper wheel whose remainder is a revolution or more stays there. -/
theorem drop_upper (long : LEVEL_SIZE ≤ (s.timers id).left) :
    s.drop id 2 =
      s.put id 1 ((s.cursors 1 + (s.timers id).left / LEVEL_SIZE) % LEVEL_SIZE)
        ((s.timers id).left % LEVEL_SIZE) := by
  have off : (s.timers id).left / LEVEL_SIZE > 0 :=
    Nat.div_pos long (by decide)
  simp [drop, off, put]

theorem drop_lower (short : (s.timers id).left < LEVEL_SIZE)
    (positive : 0 < (s.timers id).left) :
    s.drop id 2 = s.put id 0 ((s.cursors 0 + (s.timers id).left) % LEVEL_SIZE) 0 := by
  have off : ¬ (s.timers id).left / LEVEL_SIZE > 0 := by
    rw [Nat.div_eq_of_lt short]
    exact Nat.lt_irrefl 0
  simp [drop, off, positive, put, Nat.mod_one]

end Scheduler

end NetDefender.Timers
