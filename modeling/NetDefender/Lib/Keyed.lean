import Mathlib.Data.List.Basic
import Mathlib.Data.List.Nodup

/-!
# Tables of entries with a key

A list of entries that are found by their key: an entry is changed in place or put at the
head, and a sweep leaves some entries out.  As long as no two entries have the same key,
each key is looked up as if it had a cell of its own.
-/

namespace NetDefender.Keyed

variable {τ κ : Type*}

section Distinct

/-- No two entries have the same key. -/
def Distinct (key : τ → κ) (entries : List τ) : Prop := (entries.map key).Nodup

theorem Distinct.filter {key : τ → κ} {entries : List τ} (distinct : Distinct key entries)
    (keep : τ → Bool) : Distinct key (entries.filter keep) :=
  distinct.sublist (List.filter_sublist.map key)

end Distinct

variable [DecidableEq κ] (key : τ → κ)

/-- The first entry with a key. -/
def find (wanted : κ) (entries : List τ) : Option τ :=
  entries.find? fun entry => decide (key entry = wanted)

/-- The first entry with the key of a new one is replaced by it. -/
def replace (entry : τ) (entries : List τ) : List τ :=
  entries.replaceF fun old => if key old = key entry then some entry else none

/-- An entry is stored in the place of the one with its key, or at the head. -/
def put (entry : τ) (entries : List τ) : List τ :=
  if entries.any fun old => decide (key old = key entry) then replace key entry entries
  else entry :: entries

variable {key}

theorem find_cons (wanted : κ) (entry : τ) (entries : List τ) :
    find key wanted (entry :: entries) =
      if key entry = wanted then some entry else find key wanted entries := by
  rw [find, List.find?_cons]
  split <;> simp_all [find]

theorem replace_cons (entry first : τ) (entries : List τ) :
    replace key entry (first :: entries) =
      if key first = key entry then entry :: entries
      else first :: replace key entry entries := by
  rw [replace, List.replaceF_cons]
  by_cases same : key first = key entry <;> simp [same, replace]

/-- The entry that is found has the key. -/
theorem key_of_find {wanted : κ} {entries : List τ} {entry : τ}
    (found : find key wanted entries = some entry) : key entry = wanted := by
  simpa using List.find?_some found

theorem mem_of_find {wanted : κ} {entries : List τ} {entry : τ}
    (found : find key wanted entries = some entry) : entry ∈ entries :=
  List.mem_of_find?_eq_some found

/-- Each entry is found by its key. -/
theorem Distinct.find_of_mem {entries : List τ} (distinct : Distinct key entries) {entry : τ}
    (member : entry ∈ entries) : find key (key entry) entries = some entry := by
  induction entries with
  | nil => cases member
  | cons first rest ih =>
      obtain ⟨fresh, distinct⟩ := List.nodup_cons.mp distinct
      rw [find_cons]
      rcases List.mem_cons.mp member with rfl | later
      · exact if_pos rfl
      · have other : key first ≠ key entry := fun same =>
          fresh (same ▸ List.mem_map_of_mem later)
        rw [if_neg other]
        exact ih distinct later

theorem find_eq_none {wanted : κ} {entries : List τ} :
    find key wanted entries = none ↔ wanted ∉ entries.map key := by
  simp [find]

/-- A replacement leaves the keys alone. -/
theorem map_key_replace (entry : τ) (entries : List τ) :
    (replace key entry entries).map key = entries.map key := by
  induction entries with
  | nil => rfl
  | cons first rest ih =>
      rw [replace_cons]
      split
      next same => rw [List.map_cons, List.map_cons, same]
      next => rw [List.map_cons, List.map_cons, ih]

theorem find_replace_self {entry : τ} {entries : List τ}
    (present : key entry ∈ entries.map key) :
    find key (key entry) (replace key entry entries) = some entry := by
  induction entries with
  | nil => cases present
  | cons first rest ih =>
      rw [replace_cons]
      split
      next => rw [find_cons, if_pos rfl]
      next other =>
        rw [find_cons, if_neg other]
        apply ih
        rcases List.mem_cons.mp present with same | later
        · exact absurd same.symm other
        · exact later

theorem find_replace_of_ne {wanted : κ} {entry : τ} (other : key entry ≠ wanted)
    (entries : List τ) :
    find key wanted (replace key entry entries) = find key wanted entries := by
  induction entries with
  | nil => rfl
  | cons first rest ih =>
      rw [replace_cons]
      split
      next same => rw [find_cons, find_cons, if_neg other, if_neg (same ▸ other)]
      next => rw [find_cons, find_cons, ih]

/-- The entry that was stored is found. -/
@[simp]
theorem find_put_self (entry : τ) (entries : List τ) :
    find key (key entry) (put key entry entries) = some entry := by
  rw [put]
  split
  next present =>
    apply find_replace_self
    simpa using present
  next => rw [find_cons, if_pos rfl]

/-- Storing an entry leaves the other keys alone. -/
theorem find_put_of_ne {wanted : κ} {entry : τ} (other : key entry ≠ wanted)
    (entries : List τ) : find key wanted (put key entry entries) = find key wanted entries := by
  rw [put]
  split
  next => exact find_replace_of_ne other entries
  next => rw [find_cons, if_neg other]

theorem Distinct.put {entries : List τ} (distinct : Distinct key entries) (entry : τ) :
    Distinct key (put key entry entries) := by
  rw [Keyed.put]
  split
  next => rwa [Distinct, map_key_replace]
  next absent =>
    refine List.nodup_cons.mpr ⟨?_, distinct⟩
    simpa using absent

/-- A sweep does to each key what it does to its entry. -/
theorem Distinct.find_filter {entries : List τ} (distinct : Distinct key entries)
    (keep : τ → Bool) (wanted : κ) :
    find key wanted (entries.filter keep) = (find key wanted entries).filter keep := by
  induction entries with
  | nil => rfl
  | cons first rest ih =>
      obtain ⟨fresh, distinct⟩ := List.nodup_cons.mp distinct
      rw [find_cons, List.filter_cons]
      by_cases same : key first = wanted
      · have none : find key wanted (rest.filter keep) = none := by
          rw [ih distinct, find_eq_none.mpr (same ▸ fresh)]
          rfl
        rw [if_pos same, Option.filter_some]
        split
        next => rw [find_cons, if_pos same]
        next => exact none
      · rw [if_neg same]
        split
        next => rw [find_cons, if_neg same, ih distinct]
        next => exact ih distinct

/-! ## Entries that expire -/

section Expiry

variable {expired : Int → τ → Prop} {now : Int} {cell kept : Option τ}

/-- What a cell holds beside what it would hold without sweeps: the same, or nothing where
the other holds an entry that has expired. -/
inductive Agrees (expired : Int → τ → Prop) (now : Int) : Option τ → Option τ → Prop where
  | same (cell : Option τ) : Agrees expired now cell cell
  | swept {entry : τ} (late : expired now entry) : Agrees expired now none (some entry)

/-- What has expired stays expired. -/
theorem Agrees.later {later : Int} (agrees : Agrees expired now cell kept)
    (lasting : ∀ entry, expired now entry → expired later entry) :
    Agrees expired later cell kept := by
  cases agrees with
  | same cell => exact .same cell
  | swept late => exact .swept (lasting _ late)

/-- A sweep of expired entries. -/
theorem Agrees.sweep {keep : τ → Bool} (agrees : Agrees expired now cell kept)
    (only : ∀ entry ∈ kept, keep entry = false → expired now entry) :
    Agrees expired now (cell.filter keep) kept := by
  cases agrees with
  | same cell =>
      cases cell with
      | none => exact .same none
      | some entry =>
          rw [Option.filter_some]
          split
          next => exact .same _
          next dropped =>
            apply Agrees.swept
            exact only entry rfl (by simpa using dropped)
  | swept late => exact .swept late

/-- An access sees no difference if it takes an expired entry for a new one. -/
theorem Agrees.access {σ : Type*} (agrees : Agrees expired now cell kept) (observe : τ → σ)
    (fresh : τ) (renewed : ∀ entry ∈ kept, expired now entry → observe entry = observe fresh) :
    observe (cell.getD fresh) = observe (kept.getD fresh) := by
  cases agrees with
  | same cell => rfl
  | swept late => exact (renewed _ rfl late).symm

end Expiry

end NetDefender.Keyed
