import NetDefender.Dns.Message

/-!
# Writes of the DNS parser

`parse_dns_name` writes the text of a name to a buffer of its caller, which has
`DNS_MAX_NAME_LEN + 1` bytes, and compares the length of the text with the limit after each
label that it has copied.
-/

namespace NetDefender.DnsParser

open CString Logged

/-- A byte that is written to `name_out`. -/
structure Write where
  index : Nat
  char : UInt8
  deriving DecidableEq, Repr

/-- Characters are written one after the other. -/
def putChars : Nat → Bytes → Recording Write Unit
  | _, [] => pure ()
  | index, char :: chars => do
      record ⟨index, char⟩
      putChars (index + 1) chars

/-- The loop of `parse_dns_name` with its writes; `out` is the text so far. -/
def nameWrites (msg : Message) (ptr : Nat) :
    Nat → Nat → Bytes → Nat → Option Nat → Recording Write (Option (Nat × Bytes))
  | 0, _, _, _, _ => pure none
  | turns + 1, p, out, jumps, consumed =>
      if p < msg.packetEnd then
        let len := msg.memory p
        if len &&& 0xC0 = 0xC0 then
          if p + 1 ≥ msg.packetEnd then pure none
          else if pointerAt msg.memory p ≥ msg.packetLen then pure none
          else if jumps + 1 > MAX_JUMPS then pure none
          else
            nameWrites msg ptr turns (msg.packet + pointerAt msg.memory p) out (jumps + 1)
              (consumed.or (some (p - ptr + 2)))
        else if len = 0 then do
          record ⟨out.length, 0⟩
          pure (some (consumed.getD (p - ptr + 1), out))
        else if len > DNS_MAX_LABEL_LEN then pure none
        else if p + 1 + len.toNat > msg.packetEnd then pure none
        else do
          let after := appendLabel out (slice msg.memory (p + 1) len.toNat)
          putChars out.length (after.drop out.length)
          if after.length > DNS_MAX_NAME_LEN - 1 then pure none
          else nameWrites msg ptr turns (p + 1 + len.toNat) after jumps consumed
      else pure none

/-- The writes of `parse_dns_name`. -/
def parseDnsNameWrites (msg : Message) (ptr : Nat) : List Write :=
  log (nameWrites msg ptr NAME_TURNS ptr [] 0 none)

section Writes

variable {msg : Message} {ptr : Nat}

/-- The writes belong to the parser: the loop comes to the same result. -/
theorem value_nameWrites (turns p jumps : Nat) (out : Bytes) (consumed : Option Nat) :
    value (nameWrites msg ptr turns p out jumps consumed) =
      value (nameLoop msg ptr turns p out jumps consumed) := by
  induction turns generalizing p out jumps consumed with
  | zero => rfl
  | succ turns ih =>
      rw [value_nameLoop, nameWrites]
      simp only [value_ite, value_bind, value_pure, ih]

/-! ## Labels -/

/-- Labels that the loop comes to from a place on, after a number of jumps. -/
inductive Reaches (msg : Message) : Nat → Nat → List Bytes → Prop where
  | here {p jumps : Nat} : Reaches msg p jumps []
  | label {p jumps : Nat} {labels : List Bytes} (positive : 0 < (msg.memory p).toNat)
      (short : msg.memory p ≤ DNS_MAX_LABEL_LEN)
      (inside : p + 1 + (msg.memory p).toNat ≤ msg.packetEnd)
      (rest : Reaches msg (p + 1 + (msg.memory p).toNat) jumps labels) :
      Reaches msg p jumps (slice msg.memory (p + 1) (msg.memory p).toNat :: labels)
  | pointer {p jumps : Nat} {labels : List Bytes} (inside : p + 1 < msg.packetEnd)
      (tag : msg.memory p &&& 0xC0 = 0xC0)
      (target : pointerAt msg.memory p < msg.packetLen) (few : jumps + 1 ≤ MAX_JUMPS)
      (rest : Reaches msg (msg.packet + pointerAt msg.memory p) (jumps + 1) labels) :
      Reaches msg p jumps labels

/-- A label that is copied while the text is within the limit ends in the buffer. -/
def LabelsFit (msg : Message) (p jumps : Nat) (out : Bytes) : Prop :=
  ∀ labels label, Reaches msg p jumps (labels ++ [label]) →
    (labels.foldl appendLabel out).length ≤ DNS_MAX_NAME_LEN - 1 →
      ((labels ++ [label]).foldl appendLabel out).length ≤ DNS_MAX_NAME_LEN + 1

theorem LabelsFit.pointer {p jumps : Nat} {out : Bytes} (fits : LabelsFit msg p jumps out)
    (inside : p + 1 < msg.packetEnd) (tag : msg.memory p &&& 0xC0 = 0xC0)
    (target : pointerAt msg.memory p < msg.packetLen) (few : jumps + 1 ≤ MAX_JUMPS) :
    LabelsFit msg (msg.packet + pointerAt msg.memory p) (jumps + 1) out :=
  fun labels label reaches => fits labels label (.pointer inside tag target few reaches)

theorem LabelsFit.label {p jumps : Nat} {out : Bytes} (fits : LabelsFit msg p jumps out)
    (positive : 0 < (msg.memory p).toNat) (short : msg.memory p ≤ DNS_MAX_LABEL_LEN)
    (inside : p + 1 + (msg.memory p).toNat ≤ msg.packetEnd) :
    LabelsFit msg (p + 1 + (msg.memory p).toNat) jumps
      (appendLabel out (slice msg.memory (p + 1) (msg.memory p).toNat)) :=
  fun labels label reaches => fits (_ :: labels) label (.label positive short inside reaches)

theorem LabelsFit.first {p jumps : Nat} {out : Bytes} (fits : LabelsFit msg p jumps out)
    (within : out.length ≤ DNS_MAX_NAME_LEN - 1) (positive : 0 < (msg.memory p).toNat)
    (short : msg.memory p ≤ DNS_MAX_LABEL_LEN)
    (inside : p + 1 + (msg.memory p).toNat ≤ msg.packetEnd) :
    (appendLabel out (slice msg.memory (p + 1) (msg.memory p).toNat)).length ≤
      DNS_MAX_NAME_LEN + 1 :=
  fits [] _ (.label positive short inside .here) within

/-! ## Writes inside the buffer -/

theorem putChars_always {P : Write → Prop} {index : Nat} {chars : Bytes}
    (each : ∀ (write : Write), index ≤ write.index → write.index < index + chars.length →
      P write) : Always P (putChars index chars) := by
  induction chars generalizing index with
  | nil => exact .pure _
  | cons char chars ih =>
      have here : P ⟨index, char⟩ := each _ (Nat.le_refl index) (by simp)
      refine .bind ((Always.record_iff _).mpr here)
        (ih fun write low high => each write (by omega) ?_)
      rw [List.length_cons]
      omega

/-- The loop stays in the buffer as long as the labels fit, by induction on its turns. -/
theorem nameWrites_always (turns : Nat) {p jumps : Nat} {out : Bytes} {consumed : Option Nat}
    (within : out.length ≤ DNS_MAX_NAME_LEN - 1) (fits : LabelsFit msg p jumps out) :
    Always (fun write => write.index < DNS_MAX_NAME_LEN + 1)
      (nameWrites msg ptr turns p out jumps consumed) := by
  induction turns generalizing p out jumps consumed with
  | zero => exact .pure _
  | succ turns ih =>
      unfold nameWrites
      refine .ite (fun before => ?_) fun _ => .pure _
      refine .ite (fun tag => ?_) fun notTag => .ite (fun ends => ?_) fun more => ?_
      · refine .ite (fun _ => .pure _) fun second => .ite (fun _ => .pure _) fun target =>
          .ite (fun _ => .pure _) fun few => ?_
        exact ih within (fits.pointer (by omega) tag (by omega) (by omega))
      · refine .bind ((Always.record_iff _).mpr ?_) (.pure _)
        exact Nat.lt_of_le_of_lt within (by decide)
      · refine .ite (fun _ => .pure _) fun short => .ite (fun _ => .pure _) fun inside => ?_
        have short : msg.memory p ≤ DNS_MAX_LABEL_LEN := UInt8.not_lt.mp short
        have inside : p + 1 + (msg.memory p).toNat ≤ msg.packetEnd := Nat.le_of_not_gt inside
        have positive : 0 < (msg.memory p).toNat :=
          Nat.pos_of_ne_zero fun none => more (UInt8.toNat_inj.mp none)
        have first := fits.first within positive short inside
        refine .bind (putChars_always fun write low high => ?_) (.ite (fun _ => .pure _) ?_)
        · rw [List.length_drop] at high
          have longer := appendLabel_length out
            (slice msg.memory (p + 1) (msg.memory p).toNat)
          omega
        · exact fun kept => ih (Nat.le_of_not_gt kept) (fits.label positive short inside)

/-! ## Writes of every label -/

theorem mem_log_putChars {index : Nat} {chars : Bytes} {k : Nat} (inside : k < chars.length) :
    ∃ write ∈ log (putChars index chars), write.index = index + k := by
  induction chars generalizing index k with
  | nil => exact absurd inside (Nat.not_lt_zero k)
  | cons char chars ih =>
      rw [putChars, log_bind]
      cases k with
      | zero => exact ⟨⟨index, char⟩, List.mem_append_left _ (by simp), rfl⟩
      | succ k =>
          obtain ⟨write, member, same⟩ := @ih (index + 1) k (by simpa using inside)
          exact ⟨write, List.mem_append_right _ member, by omega⟩

/-- The last character of a text that became longer. -/
theorem mem_log_putChars_last {out after : Bytes} (longer : out.length < after.length) :
    ∃ write ∈ log (putChars out.length (after.drop out.length)),
      write.index + 1 = after.length := by
  have inside : after.length - out.length - 1 < (after.drop out.length).length := by
    rw [List.length_drop]
    omega
  obtain ⟨write, member, index⟩ := @mem_log_putChars out.length _ _ inside
  exact ⟨write, member, by omega⟩

/-- One turn that copies a label. -/
theorem log_nameWrites_label {turns p jumps : Nat} {out : Bytes} {consumed : Option Nat}
    (positive : 0 < (msg.memory p).toNat) (short : msg.memory p ≤ DNS_MAX_LABEL_LEN)
    (inside : p + 1 + (msg.memory p).toNat ≤ msg.packetEnd) :
    let after := appendLabel out (slice msg.memory (p + 1) (msg.memory p).toNat)
    log (nameWrites msg ptr (turns + 1) p out jumps consumed) =
      log (putChars out.length (after.drop out.length)) ++
        if after.length > DNS_MAX_NAME_LEN - 1 then []
        else
          log (nameWrites msg ptr turns (p + 1 + (msg.memory p).toNat) after jumps consumed) := by
  have nonzero : msg.memory p ≠ 0 := fun zero => by simp [zero] at positive
  rw [nameWrites, if_pos (by omega), if_neg (tag_of_short short), if_neg nonzero,
    if_neg (UInt8.not_lt.mpr short), if_neg (by omega)]
  dsimp only
  rw [log_bind]
  congr 1
  split <;> rfl

theorem log_nameWrites_pointer {turns p jumps : Nat} {out : Bytes} {consumed : Option Nat}
    (inside : p + 1 < msg.packetEnd) (tag : msg.memory p &&& 0xC0 = 0xC0)
    (target : pointerAt msg.memory p < msg.packetLen) (few : jumps + 1 ≤ MAX_JUMPS) :
    nameWrites msg ptr (turns + 1) p out jumps consumed =
      nameWrites msg ptr turns (msg.packet + pointerAt msg.memory p) out (jumps + 1)
        (consumed.or (some (p - ptr + 2))) := by
  rw [nameWrites, if_pos (by omega), if_pos tag, if_neg (by omega), if_neg (by omega),
    if_neg (by omega)]

/-- The last character of each label that the loop comes to is written, by induction on the
way to it. -/
theorem nameWrites_reach {p jumps : Nat} {reached labels : List Bytes} {label : Bytes}
    (reaches : Reaches msg p jumps reached) (split : reached = labels ++ [label])
    {turns : Nat} {out : Bytes} {consumed : Option Nat} (few : jumps ≤ MAX_JUMPS)
    (within : (labels.foldl appendLabel out).length ≤ DNS_MAX_NAME_LEN - 1)
    (enough : DNS_MAX_NAME_LEN - out.length + (MAX_JUMPS + 1 - jumps) < turns) :
    ∃ write ∈ log (nameWrites msg ptr turns p out jumps consumed),
      write.index + 1 = ((labels ++ [label]).foldl appendLabel out).length := by
  induction reaches generalizing labels turns out consumed with
  | here => exact absurd split.symm (by simp)
  | @label p jumps later positive short inside rest ih =>
      cases turns with
      | zero => exact absurd enough (Nat.not_lt_zero _)
      | succ turns =>
          rw [log_nameWrites_label positive short inside]
          have longer := appendLabel_length out
            (slice msg.memory (p + 1) (msg.memory p).toNat)
          have size : (slice msg.memory (p + 1) (msg.memory p).toNat).length =
              (msg.memory p).toNat := by simp [slice]
          cases labels with
          | nil =>
              obtain ⟨rfl, rfl⟩ := List.cons.inj split
              obtain ⟨write, member, index⟩ := mem_log_putChars_last
                (Nat.lt_of_lt_of_le (by omega : out.length < out.length + _) longer)
              exact ⟨write, List.mem_append_left _ member, index⟩
          | cons first labels =>
              obtain ⟨rfl, later_eq⟩ := List.cons.inj split
              rw [List.foldl_cons] at within
              have grows := appendLabel_foldl_length labels
                (appendLabel out (slice msg.memory (p + 1) (msg.memory p).toNat))
              rw [if_neg (by omega)]
              have found := @ih labels later_eq turns _ consumed few within (by omega)
              obtain ⟨write, member, index⟩ := found
              exact ⟨write, List.mem_append_right _ member, index⟩
  | @pointer p jumps later inside tag target few' rest ih =>
      cases turns with
      | zero => exact absurd enough (Nat.not_lt_zero _)
      | succ turns =>
          rw [log_nameWrites_pointer inside tag target few']
          exact ih split few' within (by omega)

/-- `parse_dns_name` writes inside the buffer of its caller exactly if each label that it
copies ends there. -/
theorem name_writes_iff (msg : Message) (ptr : Nat) :
    (∀ write ∈ parseDnsNameWrites msg ptr, write.index < DNS_MAX_NAME_LEN + 1) ↔
      LabelsFit msg ptr 0 [] := by
  constructor
  · intro inside labels label reaches within
    obtain ⟨write, member, last⟩ := @nameWrites_reach msg ptr ptr 0 _ labels label reaches rfl
      NAME_TURNS [] none (Nat.zero_le _) within (by decide)
    have bound := inside write member
    omega
  · intro fits
    exact nameWrites_always NAME_TURNS (Nat.zero_le _) fits

/-- Behind the header, a name of 254 characters in four labels, and a fifth label of 63. -/
def longName : Message where
  memory := fun p =>
    if p = 12 ∨ p = 76 ∨ p = 140 ∨ p = 267 then 63
    else if p = 204 then 62
    else if p = 331 then 0
    else 97
  packet := 0
  packetLen := 336

/-- The fifth label is copied to the bytes behind the buffer. -/
theorem long_name_overflows :
    ¬∀ (msg : Message) (ptr : Nat), ∀ write ∈ parseDnsNameWrites msg ptr,
      write.index < DNS_MAX_NAME_LEN + 1 := by
  intro all
  have reaches : ∃ write ∈ parseDnsNameWrites longName 12, write.index = 317 := by
    decide +kernel
  obtain ⟨write, member, index⟩ := reaches
  have bound := all longName 12 write member
  rw [index] at bound
  exact absurd bound (by decide)

end Writes

end NetDefender.DnsParser
