import NetDefender.Lib.Searching
import NetDefender.Proto.Detect

/-!
# Windows of patterns

A pattern is looked for from its offset on, up to its depth or the end of the payload.
`try_pattern_detection` compares the offset with the length of the payload, and then takes it
from a length that the depth may have made smaller.
-/

namespace NetDefender.Proto

open CString Logged Reading Searching

/-! ## The detection with its reads -/

/-- How a pattern compares bytes. -/
def keyOf (caseSensitive : Bool) (byte : UInt8) : UInt8 :=
  if caseSensitive then byte else tolower byte

/-- `pattern_match`, on the data from a place on. -/
def readPatternMatch (memory : Memory) (start : Nat) (dataLen : BitVec 32) (pattern : List UInt8)
    (caseSensitive : Bool) : Recording Nat Bool :=
  if dataLen.toNat < pattern.length then pure false
  else
    search memory (keyOf caseSensitive) pattern (dataLen.toNat - pattern.length + 1) start

/-- `search_len` after the depth, in front of the offset. -/
def Pattern.depthLen (p : Pattern) (len : BitVec 32) : BitVec 32 :=
  if p.depth > 0 ∧ len > p.depth.setWidth 32 then p.depth.setWidth 32 else len

/-- The turn of `try_pattern_detection` for one pattern. -/
def readPattern (memory : Memory) (len : BitVec 32) (p : Pattern) : Recording Nat Bool :=
  if p.offset > 0 ∧ len < p.offset.setWidth 32 then pure false
  else
    readPatternMatch memory p.offset.toNat (p.depthLen len - p.offset.setWidth 32) p.pattern
      p.caseSensitive

/-- `try_pattern_detection`: the pattern that matches. -/
def readPatternDetection (memory : Memory) (len : BitVec 32) :
    List Pattern → Recording Nat (Option Pattern)
  | [] => pure none
  | p :: rest => do
      let found ← readPattern memory len p
      if found then pure (some p) else readPatternDetection memory len rest

section Values

variable {memory : Memory} {len : BitVec 32} {p : Pattern}

theorem value_readPatternMatch_iff {start : Nat} {dataLen : BitVec 32} {pattern : List UInt8}
    {caseSensitive : Bool} :
    value (readPatternMatch memory start dataLen pattern caseSensitive) = true ↔
      ∃ i, i + pattern.length ≤ dataLen.toNat ∧
        Stands memory (keyOf caseSensitive) pattern (start + i) := by
  rw [readPatternMatch, value_ite]
  split
  next short =>
    refine iff_of_false Bool.false_ne_true ?_
    rintro ⟨i, inside, -⟩
    omega
  next long =>
    rw [value_search]
    exact exists_congr fun i => and_congr_left fun _ => by omega

theorem patternMatch_iff {start : Nat} {dataLen : BitVec 32} {pattern : List UInt8}
    {caseSensitive : Bool} :
    patternMatch (fun index => memory (start + index)) dataLen pattern caseSensitive = true ↔
      ∃ i, i + pattern.length ≤ dataLen.toNat ∧
        Stands memory (keyOf caseSensitive) pattern (start + i) := by
  rw [patternMatch]
  split
  next short =>
    refine iff_of_false Bool.false_ne_true ?_
    rintro ⟨i, inside, -⟩
    omega
  next long =>
    rw [List.any_eq_true]
    refine exists_congr fun i => ?_
    rw [List.mem_range]
    refine and_congr (by omega) ?_
    rw [List.all_eq_true, stands_iff]
    refine forall_congr' fun j => ?_
    rw [List.mem_range]
    refine forall_congr' fun inside => ?_
    rw [List.getD_eq_getElem?_getD, List.getElem?_eq_getElem inside, Option.getD_some,
      Nat.add_assoc]
    cases caseSensitive with
    | false => simp [keyOf]
    | true => simp [keyOf]

/-- The turn with its reads has the verdict of the turn. -/
theorem value_readPattern : value (readPattern memory len p) = tryPattern memory len p := by
  rw [readPattern, tryPattern, value_ite]
  split
  next => rfl
  next =>
    rw [Bool.eq_iff_iff, value_readPatternMatch_iff]
    exact patternMatch_iff.symm

theorem value_readPatternDetection (patterns : List Pattern) :
    value (readPatternDetection memory len patterns) =
      patterns.find? (tryPattern memory len) := by
  induction patterns with
  | nil => rfl
  | cons p rest ih =>
      rw [readPatternDetection, value_bind, value_ite, value_readPattern, ih, List.find?_cons]
      cases tryPattern memory len p with
      | false => rfl
      | true => rfl

end Values

/-! ## Windows -/

namespace Pattern

variable (p : Pattern) (memory : Memory) (len : BitVec 32)

/-- Where the window of a pattern ends; a depth of 0 is no limit. -/
def windowEnd : Nat :=
  if p.depth.toNat = 0 then len.toNat else min len.toNat p.depth.toNat

/-- The pattern occurs in its window. -/
def Occurs : Prop :=
  ∃ place, p.offset.toNat ≤ place ∧ place + p.pattern.length ≤ p.windowEnd len ∧
    Stands memory (keyOf p.caseSensitive) p.pattern place

/-- The depth ends in front of the offset, and the payload does not. -/
def Wraps : Prop :=
  0 < p.depth.toNat ∧ p.depth.toNat < p.offset.toNat ∧ p.offset.toNat ≤ len.toNat

instance : Decidable (p.Wraps len) := inferInstanceAs (Decidable (_ ∧ _))

/-- At every place of a search over a length that has wrapped around, there is a difference
inside the payload.  No payload is so long, unless it has nearly 2^32 bytes. -/
def Differs : Prop :=
  ∀ i, i + p.pattern.length ≤ 2 ^ 32 + p.depth.toNat - p.offset.toNat →
    ¬ Agrees memory (keyOf p.caseSensitive) p.pattern len.toNat (p.offset.toNat + i)

variable {p memory len}

theorem depthLen_toNat : (p.depthLen len).toNat = p.windowEnd len := by
  have depth : (p.depth.setWidth 32).toNat = p.depth.toNat := by
    rw [BitVec.toNat_setWidth]
    omega
  rw [depthLen, windowEnd]
  by_cases none : p.depth.toNat = 0
  · have zero : ¬ p.depth > 0 := by
      rw [gt_iff_lt, BitVec.lt_def, none]
      exact Nat.not_lt_zero _
    rw [if_neg fun both => zero both.1, if_pos none]
  · have positive : p.depth > 0 := Nat.pos_of_ne_zero none
    rw [if_neg none]
    by_cases longer : len > p.depth.setWidth 32
    · rw [if_pos ⟨positive, longer⟩, depth]
      rw [gt_iff_lt, BitVec.lt_def, depth] at longer
      omega
    · rw [if_neg fun both => longer both.2]
      rw [gt_iff_lt, BitVec.lt_def, depth] at longer
      omega

theorem windowEnd_le : p.windowEnd len ≤ len.toNat := by
  rw [windowEnd]
  split
  next => exact Nat.le_refl _
  next => exact Nat.min_le_left _ _

theorem not_occurs (nonempty : p.pattern ≠ []) (empty : p.windowEnd len ≤ p.offset.toNat) :
    ¬ p.Occurs memory len := by
  rintro ⟨place, above, below, -⟩
  have length := List.length_pos_of_ne_nil nonempty
  omega

/-- An offset behind the payload: the turn reads nothing. -/
theorem readPattern_behind (behind : len.toNat < p.offset.toNat) :
    readPattern memory len p = pure false := by
  have offset : (p.offset.setWidth 32).toNat = p.offset.toNat := by
    rw [BitVec.toNat_setWidth]
    omega
  rw [readPattern, if_pos]
  constructor
  · rw [gt_iff_lt, BitVec.lt_def]
    exact Nat.zero_lt_of_lt behind
  · rwa [BitVec.lt_def, offset]

theorem readPattern_inside (inside : p.offset.toNat ≤ len.toNat) :
    readPattern memory len p =
      readPatternMatch memory p.offset.toNat (p.depthLen len - p.offset.setWidth 32) p.pattern
        p.caseSensitive := by
  have offset : (p.offset.setWidth 32).toNat = p.offset.toNat := by
    rw [BitVec.toNat_setWidth]
    omega
  rw [readPattern, if_neg]
  rintro ⟨-, behind⟩
  rw [BitVec.lt_def, offset] at behind
  omega

/-- The length that is searched. -/
theorem searchLen_toNat :
    (p.depthLen len - p.offset.setWidth 32).toNat =
      if p.offset.toNat ≤ p.windowEnd len then p.windowEnd len - p.offset.toNat
      else 2 ^ 32 + p.windowEnd len - p.offset.toNat := by
  have offset : (p.offset.setWidth 32).toNat = p.offset.toNat := by
    rw [BitVec.toNat_setWidth]
    omega
  have bound := len.isLt
  have window := @windowEnd_le p len
  have small := p.offset.isLt
  rw [BitVec.toNat_sub, depthLen_toNat, offset]
  split <;> omega

theorem wraps_iff :
    p.Wraps len ↔ p.offset.toNat ≤ len.toNat ∧ p.windowEnd len < p.offset.toNat := by
  rw [Wraps, windowEnd]
  split <;> omega

end Pattern

/-! ## The law of a pattern -/

/-- The turn for a pattern reads inside the payload, and the pattern matches exactly if it
occurs in its window. -/
structure PatternLaw (memory : Memory) (len : BitVec 32) (p : Pattern) : Prop where
  inside : Below len.toNat (readPattern memory len p)
  found : value (readPattern memory len p) = true ↔ p.Occurs memory len
  empty : p.windowEnd len ≤ p.offset.toNat → value (readPattern memory len p) = false

section Law

open Pattern

variable {memory : Memory} {len : BitVec 32} {p : Pattern}

/-- The law without its last part, which follows for a pattern that is not empty. -/
theorem PatternLaw.of_found (nonempty : p.pattern ≠ [])
    (inside : Below len.toNat (readPattern memory len p))
    (found : value (readPattern memory len p) = true ↔ p.Occurs memory len) :
    PatternLaw memory len p :=
  ⟨inside, found, fun empty =>
    Bool.eq_false_iff.mpr fun matched => not_occurs nonempty empty (found.mp matched)⟩

theorem law_behind (nonempty : p.pattern ≠ []) (behind : len.toNat < p.offset.toNat) :
    PatternLaw memory len p := by
  have empty : p.windowEnd len ≤ p.offset.toNat := Nat.le_trans windowEnd_le (Nat.le_of_lt behind)
  refine .of_found nonempty ?_ ?_
  · rw [readPattern_behind behind]
    exact .pure _
  · rw [readPattern_behind behind]
    exact iff_of_false Bool.false_ne_true (not_occurs nonempty empty)

/-- A window that begins inside the payload and does not end in front of its beginning. -/
theorem law_window (nonempty : p.pattern ≠ []) (window : p.offset.toNat ≤ p.windowEnd len) :
    PatternLaw memory len p := by
  have bound := @windowEnd_le p len
  have size := @searchLen_toNat p len
  rw [if_pos window] at size
  refine .of_found nonempty ?_ ?_
  · rw [readPattern_inside (by omega), readPatternMatch]
    refine .ite (fun _ => .pure _) fun long => search_below ?_
    omega
  · rw [readPattern_inside (by omega), value_readPatternMatch_iff, size]
    constructor
    · rintro ⟨i, inside, stands⟩
      exact ⟨p.offset.toNat + i, Nat.le_add_right _ _, by omega, stands⟩
    · rintro ⟨place, above, inside, stands⟩
      refine ⟨place - p.offset.toNat, by omega, ?_⟩
      rwa [Nat.add_sub_cancel' above]

/-- A search for a pattern that does not occur in its window. -/
theorem law_search_iff (nonempty : p.pattern ≠ []) (inside : p.offset.toNat ≤ len.toNat)
    (never : ¬ p.Occurs memory len) {total : Nat}
    (size : (p.depthLen len - p.offset.setWidth 32).toNat = total) :
    PatternLaw memory len p ↔ ∀ i, i + p.pattern.length ≤ total →
      ¬ Agrees memory (keyOf p.caseSensitive) p.pattern len.toNat (p.offset.toNat + i) := by
  have value := @value_readPatternMatch_iff memory p.offset.toNat
    (p.depthLen len - p.offset.setWidth 32) p.pattern p.caseSensitive
  rw [size] at value
  constructor
  · intro law i reached agrees
    have absent : ∀ i < total - p.pattern.length + 1,
        ¬ Stands memory (keyOf p.caseSensitive) p.pattern (p.offset.toNat + i) := by
      intro i small stands
      have found := law.found
      rw [readPattern_inside inside, value] at found
      exact never (found.mp ⟨i, by omega, stands⟩)
    have below := law.inside
    rw [readPattern_inside inside, readPatternMatch, size, if_neg (by omega),
      search_below_iff absent] at below
    rcases (matchAt_below_iff nonempty).mp (below i (by omega)) with ends | differs
    · exact absent i (by omega) ((agrees_iff_stands ends).mp agrees)
    · exact differs agrees
  · intro differs
    have absent : ∀ i, i + p.pattern.length ≤ total →
        ¬ Stands memory (keyOf p.caseSensitive) p.pattern (p.offset.toNat + i) :=
      fun i reached stands => differs i reached stands.agrees
    refine .of_found nonempty ?_ ?_
    · rw [readPattern_inside inside, readPatternMatch, size]
      refine .ite (fun _ => .pure _) fun long => ?_
      rw [search_below_iff fun i small => absent i (by omega)]
      exact fun i small => (matchAt_below_iff nonempty).mpr (Or.inr (differs i (by omega)))
    · rw [readPattern_inside inside, value]
      refine iff_of_false ?_ never
      rintro ⟨i, reached, stands⟩
      exact absent i reached stands

/-- The search over a length that has wrapped around. -/
theorem law_wraps_iff (nonempty : p.pattern ≠ []) (wraps : p.Wraps len) :
    PatternLaw memory len p ↔ p.Differs memory len := by
  obtain ⟨inside, front⟩ := wraps_iff.mp wraps
  have window : p.windowEnd len = p.depth.toNat := by
    obtain ⟨positive, before, -⟩ := wraps
    rw [windowEnd, if_neg (by omega)]
    omega
  have size := @searchLen_toNat p len
  rw [if_neg (by omega), window] at size
  exact law_search_iff nonempty inside (not_occurs nonempty (Nat.le_of_lt front)) size

/-- With a payload of less than nearly 2^32 bytes, the search comes to its end. -/
theorem not_differs (inside : p.offset.toNat ≤ len.toNat)
    (short : len.toNat + p.pattern.length ≤ 2 ^ 32 + p.depth.toNat) :
    ¬ p.Differs memory len := by
  intro differs
  refine differs (len.toNat - p.offset.toNat) (by omega) (agrees_outside ?_)
  rw [Nat.add_sub_cancel' inside]

end Law

/-! ## Registered patterns -/

/-- The patterns of a direction. -/
def Registry.patterns (registry : Registry) : Direction → List Pattern
  | .toserver => registry.patternsTs
  | .toclient => registry.patternsTc

/-- The lists after calls of `proto_detect_register_pattern`. -/
def registerPatterns (entries : List (BitVec 8 × Pattern)) : Registry :=
  entries.foldl (fun registry entry => registerPattern registry entry.1 entry.2) {}

section Registered

variable {entries : List (BitVec 8 × Pattern)} {direction : Direction} {p : Pattern}
variable {memory : Memory} {len : BitVec 32}

theorem mem_registerPattern {registry : Registry} {flags : BitVec 8} {entry : Pattern}
    (member : p ∈ (registerPattern registry flags entry).patterns direction) :
    p ∈ registry.patterns direction ∨ p = entry ∧ entry.pattern ≠ [] := by
  rw [registerPattern] at member
  split at member
  next => exact Or.inl member
  next nonempty =>
    cases direction with
    | toserver =>
        rw [Registry.patterns] at member
        dsimp only at member
        split at member
        next => exact (List.mem_cons.mp member).symm.imp_right fun same => ⟨same, nonempty⟩
        next => exact Or.inl member
    | toclient =>
        rw [Registry.patterns] at member
        dsimp only at member
        split at member
        next => exact (List.mem_cons.mp member).symm.imp_right fun same => ⟨same, nonempty⟩
        next => exact Or.inl member

/-- No empty pattern is accepted. -/
theorem registered_nonempty (registered : p ∈ (registerPatterns entries).patterns direction) :
    p.pattern ≠ [] := by
  revert registered
  refine List.foldlRecOn
    (motive := fun registry : Registry => p ∈ registry.patterns direction → p.pattern ≠ [])
    _ _ ?_ fun registry earlier entry _ member => ?_
  · intro member
    cases direction with
    | toserver => exact absurd member List.not_mem_nil
    | toclient => exact absurd member List.not_mem_nil
  · rcases mem_registerPattern member with before | ⟨rfl, nonempty⟩
    · exact earlier before
    · exact nonempty

/-- What `try_pattern_detection` returns is the protocol of the pattern that matches. -/
theorem tryPatternDetection_eq (registry : Registry) (stats : DetectStats) :
    (tryPatternDetection registry stats memory len direction).1 =
      ((value (readPatternDetection memory len (registry.patterns direction))).map
        Pattern.protocol).getD .unknown := by
  rw [value_readPatternDetection]
  cases direction with
  | toserver =>
      rw [tryPatternDetection, Registry.patterns]
      cases registry.patternsTs.find? (tryPattern memory len) <;> rfl
  | toclient =>
      rw [tryPatternDetection, Registry.patterns]
      cases registry.patternsTc.find? (tryPattern memory len) <;> rfl

/-- If the law holds of all patterns, the whole detection reads inside the payload, and finds
the first pattern that occurs in its window. -/
theorem detection_of_laws {patterns : List Pattern}
    (laws : ∀ p ∈ patterns, PatternLaw memory len p) :
    Below len.toNat (readPatternDetection memory len patterns) ∧
      ∀ p, value (readPatternDetection memory len patterns) = some p ↔
        p.Occurs memory len ∧ ∃ front back, patterns = front ++ p :: back ∧
          ∀ other ∈ front, ¬ other.Occurs memory len := by
  have verdict : ∀ p ∈ patterns, (tryPattern memory len p = true ↔ p.Occurs memory len) := by
    intro p member
    rw [← value_readPattern]
    exact (laws p member).found
  constructor
  · clear verdict
    induction patterns with
    | nil => exact .pure _
    | cons p rest ih =>
        refine .bind (laws p List.mem_cons_self).inside (.ite (fun _ => .pure _) fun _ => ?_)
        exact ih fun other member => laws other (List.mem_cons_of_mem _ member)
  · intro p
    rw [value_readPatternDetection, List.find?_eq_some_iff_append]
    constructor
    · rintro ⟨matched, front, back, rfl, before⟩
      refine ⟨(verdict p (by simp)).mp matched, front, back, rfl, fun other member occurs => ?_⟩
      have same := (verdict other (List.mem_append_left _ member)).mpr occurs
      simpa [same] using before other member
    · rintro ⟨occurs, front, back, rfl, before⟩
      refine ⟨(verdict p (by simp)).mpr occurs, front, back, rfl, fun other member => ?_⟩
      rw [Bool.not_eq_true', Bool.eq_false_iff]
      exact fun matched =>
        before other member ((verdict other (List.mem_append_left _ member)).mp matched)

/-- The law holds of a registered pattern exactly if its depth does not end in front of an
offset inside the payload, or the search over the length that wraps around finds a difference
inside the payload at each of its places. -/
theorem pattern_law_iff (registered : p ∈ (registerPatterns entries).patterns direction)
    (memory : Memory) (len : BitVec 32) :
    PatternLaw memory len p ↔ ¬ p.Wraps len ∨ p.Differs memory len := by
  have nonempty := registered_nonempty registered
  by_cases wraps : p.Wraps len
  · rw [law_wraps_iff nonempty wraps, or_iff_right (not_not_intro wraps)]
  · refine iff_of_true ?_ (Or.inl wraps)
    by_cases inside : p.offset.toNat ≤ len.toNat
    · refine law_window nonempty ?_
      by_contra front
      exact wraps (Pattern.wraps_iff.mpr ⟨inside, Nat.not_le.mp front⟩)
    · exact law_behind nonempty (Nat.not_le.mp inside)

end Registered

/-- A pattern of `proto_detect_register_http`. -/
theorem pattern_law_get :
    PatternLaw (fun _ => 0) 8 ⟨.http, [71, 69, 84, 32], 8, 0, false⟩ :=
  (@pattern_law_iff [(0x01, ⟨.http, [71, 69, 84, 32], 8, 0, false⟩)] .toserver
    ⟨.http, [71, 69, 84, 32], 8, 0, false⟩ (by decide) (fun _ => 0) 8).mpr (Or.inl (by decide))

/-- A depth of 2 and an offset of 4: the pattern matches behind its depth, and in a payload of
zeros it is looked for behind the end. -/
theorem depth_before_offset :
    let p : Pattern := ⟨.http, [71, 69, 84], 2, 4, true⟩
    let payload : Memory := fun index => [0, 0, 0, 0, 71, 69, 84, 0].getD index 0
    p ∈ (registerPatterns [(0x01, p)]).patterns .toserver ∧
      tryPattern payload 8 p = true ∧ ¬ p.Occurs payload 8 ∧
      ¬ PatternLaw (fun _ => 0) 8 p := by
  intro p payload
  have nonempty : p.pattern ≠ [] := by decide
  refine ⟨by decide, ?_, Pattern.not_occurs nonempty (by decide), ?_⟩
  · rw [← value_readPattern, Pattern.readPattern_inside (by decide), value_readPatternMatch_iff]
    exact ⟨0, by decide, by decide⟩
  · rw [law_wraps_iff nonempty (by decide)]
    exact not_differs (by decide) (by decide)

end NetDefender.Proto
