import NetDefender.Dns.Message
import NetDefender.Lib.Loops

/-!
# Names in a message

What `parse_dns_name` promises: the text is the labels of the name with dots between them,
the bytes it takes are those up to the first jump or the end of the name, and its loop ends
on every message, however its pointers lead.
-/

namespace NetDefender.DnsParser

open CString Logged Loops

/-! ## The text of a name -/

/-- A byte of a label as it is printed. -/
def shown (byte : UInt8) : UInt8 := if isprint byte then byte else 63

/-- The labels with dots between them. -/
def joined (labels : List Bytes) : Bytes :=
  [46].intercalate (labels.map fun label => label.map shown)

theorem nameChar_eq_shown : nameChar = shown := by
  funext byte
  rw [nameChar, shown]
  by_cases printed : isprint byte = true
  · simp [printed]
  · have apart : byte ≠ 45 ∧ byte ≠ 95 := by
      constructor <;> rintro rfl <;> exact printed (by decide)
    simp [printed, apart]

theorem intercalate_cons {α : Type} (dot first : List α) (rest : List (List α)) :
    dot.intercalate (first :: rest) = first ++ rest.flatMap (dot ++ ·) := by
  induction rest generalizing first with
  | nil => simp [List.intercalate]
  | cons second rest ih =>
      have later := ih second
      simp only [List.intercalate, List.intersperse_cons_cons, List.flatten_cons] at later ⊢
      rw [later, List.flatMap_cons]
      simp

/-- Labels that follow on a text, by induction on them. -/
theorem foldl_appendLabel (labels : List Bytes) {out : Bytes} (started : out ≠ []) :
    labels.foldl appendLabel out =
      out ++ (labels.map fun label => label.map shown).flatMap ([46] ++ ·) := by
  induction labels generalizing out with
  | nil => simp
  | cons label labels ih =>
      have more : appendLabel out label = out ++ 46 :: label.map shown := by
        simp [appendLabel, started, nameChar_eq_shown]
      rw [List.foldl_cons, more, ih (by simp)]
      simp

theorem dotted_eq_joined {labels : List Bytes} (filled : ∀ label ∈ labels, label ≠ []) :
    dotted labels = joined labels := by
  cases labels with
  | nil => rfl
  | cons label labels =>
      have first : appendLabel [] label = label.map shown := by
        simp [appendLabel, nameChar_eq_shown]
      have started : label.map shown ≠ [] := by simpa using filled label List.mem_cons_self
      rw [dotted, joined, List.foldl_cons, first, List.map_cons, intercalate_cons,
        foldl_appendLabel labels started]

/-! ## Exactness -/

section Exact

variable {msg : Message} {ptr : Nat}

theorem NameAt.filled {p jumps next : Nat} {labels : List Bytes}
    (name : NameAt msg p labels jumps next) : ∀ label ∈ labels, label ≠ [] := by
  induction name with
  | root => simp
  | label positive short inside rest ih =>
      rintro label (_ | ⟨_, member⟩)
      · apply List.ne_nil_of_length_pos
        rwa [slice, List.length_map, List.length_range']
      · exact ih label member
  | pointer inside tag target rest ih => exact ih

/-- The bytes at a place decode as a name that takes a number of bytes there. -/
def Decodes (msg : Message) (ptr consumed : Nat) (name : Bytes) : Prop :=
  ∃ labels jumps next, NameAt msg ptr labels jumps next ∧ jumps ≤ MAX_JUMPS ∧
    (∀ first, first <+: labels → (joined first).length ≤ DNS_MAX_NAME_LEN - 1) ∧
    name = joined labels ∧ consumed = next - ptr

theorem decodes_iff {consumed : Nat} {name : Bytes} :
    Decodes msg ptr consumed name ↔
      ∃ next, TextAt msg ptr name next ∧ consumed = next - ptr := by
  constructor
  · rintro ⟨labels, jumps, next, decoded, few, short, rfl, rfl⟩
    have whole := short labels (List.prefix_refl labels)
    exact ⟨next, ⟨labels, jumps, decoded, few, (dotted_eq_joined decoded.filled).symm,
      Nat.lt_of_le_of_lt whole (by decide)⟩, rfl⟩
  · rintro ⟨next, ⟨labels, jumps, decoded, few, rfl, short⟩, rfl⟩
    refine ⟨labels, jumps, next, decoded, few, ?_, dotted_eq_joined decoded.filled, rfl⟩
    rintro first ⟨more, rfl⟩
    have filled : ∀ label ∈ first, label ≠ [] := fun label member =>
      decoded.filled label (List.mem_append_left more member)
    have grows := appendLabel_foldl_length more (dotted first)
    rw [← dotted_eq_joined filled]
    rw [dotted, List.foldl_append] at short
    exact Nat.le_trans grows (Nat.le_sub_one_of_lt short)

/-! ## Turns -/

/-- The variables of the loop. -/
structure NameState where
  p : Nat
  out : Bytes := []
  jumps : Nat := 0
  consumed : Option Nat := none

/-- One turn of the loop of `parse_dns_name`: a result, or the variables for the next. -/
def nameTurn (msg : Message) (ptr : Nat) (state : NameState) :
    Option (Nat × Bytes) ⊕ NameState :=
  let ⟨p, out, jumps, consumed⟩ := state
  if p < msg.packetEnd then
    let len := msg.memory p
    if len &&& 0xC0 = 0xC0 then
      if p + 1 ≥ msg.packetEnd then .inl none
      else if pointerAt msg.memory p ≥ msg.packetLen then .inl none
      else if jumps + 1 > MAX_JUMPS then .inl none
      else
        .inr ⟨msg.packet + pointerAt msg.memory p, out, jumps + 1,
          consumed.or (some (p - ptr + 2))⟩
    else if len = 0 then .inl (some (consumed.getD (p - ptr + 1), out))
    else if len > DNS_MAX_LABEL_LEN then .inl none
    else if p + 1 + len.toNat > msg.packetEnd then .inl none
    else
      let out := appendLabel out (slice msg.memory (p + 1) len.toNat)
      if out.length > DNS_MAX_NAME_LEN - 1 then .inl none
      else .inr ⟨p + 1 + len.toNat, out, jumps, consumed⟩
  else .inl none

/-- The loop is made of these turns, by induction on their number. -/
theorem value_nameLoop_eq_run (turns p jumps : Nat) (out : Bytes) (consumed : Option Nat) :
    value (nameLoop msg ptr turns p out jumps consumed) =
      run (nameTurn msg ptr) none turns ⟨p, out, jumps, consumed⟩ := by
  induction turns generalizing p out jumps consumed with
  | zero => rfl
  | succ turns ih =>
      rw [value_nameLoop]
      simp only [run, nameTurn, apply_ite (Sum.elim _ _), Sum.elim_inl, Sum.elim_inr, id, ih]

/-- What every turn keeps. -/
def NameState.Within (state : NameState) : Prop :=
  state.out.length < DNS_MAX_NAME_LEN ∧ state.jumps ≤ MAX_JUMPS

/-- The characters and the jumps that are left. -/
def NameState.left (state : NameState) : Nat :=
  DNS_MAX_NAME_LEN - state.out.length + (MAX_JUMPS + 1 - state.jumps)

/-- A turn that goes on has counted a jump or made the text longer. -/
theorem nameTurn_decreases (state next : NameState) (within : state.Within)
    (continues : nameTurn msg ptr state = .inr next) :
    next.Within ∧ next.left < state.left := by
  obtain ⟨p, out, jumps, consumed⟩ := state
  obtain ⟨short, few⟩ : out.length < DNS_MAX_NAME_LEN ∧ jumps ≤ MAX_JUMPS := within
  simp only [nameTurn] at continues
  split at continues
  next =>
    split at continues
    next =>
      split at continues
      next => cases continues
      next =>
        split at continues
        next => cases continues
        next =>
          split at continues
          next => cases continues
          next more =>
            cases continues
            refine ⟨⟨short, Nat.le_of_not_gt more⟩, ?_⟩
            simp only [NameState.left]
            omega
    next =>
      split at continues
      next => cases continues
      next nonzero =>
        split at continues
        next => cases continues
        next =>
          split at continues
          next => cases continues
          next =>
            split at continues
            next => cases continues
            next kept =>
              cases continues
              have longer := appendLabel_length out
                (slice msg.memory (p + 1) (msg.memory p).toNat)
              have count : (slice msg.memory (p + 1) (msg.memory p).toNat).length =
                  (msg.memory p).toNat := by rw [slice, List.length_map, List.length_range']
              have positive : 0 < (msg.memory p).toNat :=
                Nat.pos_of_ne_zero fun none => nonzero (UInt8.toNat_inj.mp none)
              have still := Nat.lt_of_le_of_lt (Nat.le_of_not_gt kept)
                (by decide : DNS_MAX_NAME_LEN - 1 < DNS_MAX_NAME_LEN)
              refine ⟨⟨still, few⟩, ?_⟩
              simp only [NameState.left]
              omega
  next => cases continues

/-- `*name_len_out`. -/
def nameLenOut (name : Bytes) : BitVec 16 := BitVec.ofNat 16 name.length

/-- `parse_dns_name` ends on every input, within 267 turns, and succeeds exactly on the names
within its limits: it returns their labels with dots between them, the length of that text,
and the bytes up to the first pointer or the terminator. -/
theorem parse_dns_name_exact (msg : Message) (ptr : Nat) :
    (∃ turns ≤ NAME_TURNS,
      Returns (nameTurn msg ptr) ⟨ptr, [], 0, none⟩ turns (value (parseDnsName msg ptr))) ∧
    (∀ consumed name, value (parseDnsName msg ptr) = some (consumed, name) ↔
      Decodes msg ptr consumed name) ∧
    ∀ consumed name, value (parseDnsName msg ptr) = some (consumed, name) →
      (nameLenOut name).toNat = name.length ∧ 1 ≤ consumed ∧
        ptr + consumed ≤ msg.packetEnd := by
  have exact : ∀ consumed name, value (parseDnsName msg ptr) = some (consumed, name) ↔
      Decodes msg ptr consumed name := fun consumed name =>
    (parseDnsName_iff ptr consumed name).trans decodes_iff.symm
  refine ⟨?_, exact, fun consumed name found => ?_⟩
  · rw [parseDnsName, value_nameLoop_eq_run]
    have start : (⟨ptr, [], 0, none⟩ : NameState).Within :=
      ⟨Nat.zero_lt_succ 254, Nat.zero_le _⟩
    exact returns_run nameTurn_decreases start (Nat.lt_succ_self 266)
  · obtain ⟨next, named, rfl⟩ := decodes_iff.mp ((exact consumed name).mp found)
    obtain ⟨forward, inside⟩ := named.bounds
    obtain ⟨labels, jumps, decoded, few, rfl, short⟩ := named
    refine ⟨?_, by omega, by omega⟩
    rw [nameLenOut, BitVec.toNat_ofNat, Nat.mod_eq_of_lt]
    exact Nat.lt_trans short (by decide)

end Exact

end NetDefender.DnsParser
