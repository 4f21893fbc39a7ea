import NetDefender.Config.Printing

/-!
# What the settings make

Every value that is in range is read back from its text, and the settings of a configuration make
that configuration, whatever was configured before.
-/

namespace NetDefender.Config

open CString Netif Output

/-! ## Numbers -/

theorem decimal_append (digits : Bytes) (digit : UInt8) :
    decimal (digits ++ [digit]) = decimal digits * 10 + (digit.toNat - 48) := by
  rw [decimal, List.foldl_append]
  rfl

theorem toNat_digitChar {digit : Nat} (small : digit < 10) :
    (UInt8.ofNat (Nat.digitChar digit).toNat).toNat - 48 = digit := by
  interval_cases digit <;> rfl

theorem decimal_printUnsigned (value : Nat) : decimal (printUnsigned value) = value := by
  induction value using Nat.strongRecOn with
  | ind value ih =>
      rw [printUnsigned]
      by_cases small : value < 10
      · rw [Nat.toDigits_of_lt_base small]
        have one := decimal_append [] (UInt8.ofNat (Nat.digitChar value).toNat)
        rw [toNat_digitChar small] at one
        simpa [decimal] using one
      · have below : value / 10 < value := Nat.div_lt_self (by omega) (by decide)
        have last : value % 10 < 10 := Nat.mod_lt _ (by decide)
        rw [Nat.toDigits_of_base_le (by decide) (Nat.le_of_not_lt small), List.map_append]
        refine (decimal_append _ _).trans ?_
        rw [← printUnsigned, ih _ below, toNat_digitChar last]
        exact Nat.div_add_mod' value 10

theorem printUnsigned_digit {value : Nat} {c : UInt8} (member : c ∈ printUnsigned value) :
    isdigit c = true := (isDigits_printUnsigned value).2 c member

theorem not_isspace_of_isdigit {c : UInt8} (digit : isdigit c = true) : isspace c = false := by
  simp only [isdigit, isspace, decide_eq_true_eq, decide_eq_false_iff_not] at digit ⊢
  rintro (rfl | inside)
  · exact absurd digit (by decide)
  · have order : (48 : UInt8) ≤ 13 := UInt8.le_trans digit.1 inside.2
    exact absurd order (by decide)

theorem strtol_printUnsigned (value : Nat) :
    strtol (printUnsigned value) = min (value : Int) (2 ^ 63 - 1) := by
  obtain ⟨c, rest, parts⟩ := List.exists_cons_of_ne_nil (printUnsigned_ne_nil value)
  have digits : ∀ d ∈ printUnsigned value, isdigit d = true := fun _ => printUnsigned_digit
  have first := digits c (by simp [parts])
  have kept : (printUnsigned value).dropWhile isspace = printUnsigned value := by
    rw [parts, List.dropWhile_cons_of_neg (by simp [not_isspace_of_isdigit first])]
  have noMinus : (printUnsigned value).head? ≠ some 45 := by
    rw [parts]
    rintro ⟨⟩
    cases first
  have noPlus : (printUnsigned value).head? ≠ some 43 := by
    rw [parts]
    rintro ⟨⟩
    cases first
  rw [strtol, kept]
  simp only [noMinus, noPlus, or_self, if_false]
  rw [List.takeWhile_eq_self_iff.mpr digits, decimal_printUnsigned]

theorem atoiInt_printUnsigned {value : Nat} (small : value < 2 ^ 31) :
    atoiInt (printUnsigned value) = value := by
  rw [atoiInt, strtol_printUnsigned, min_eq_left (by omega)]
  exact Int.bmod_eq_of_le (by omega) (by omega)

/-- A number in its decimal digits. -/
theorem atoiInt_number {value : Int} (low : 0 ≤ value) (high : value < 2 ^ 31) :
    atoiInt (printUnsigned value.toNat) = value := by
  rw [atoiInt_printUnsigned (by omega), Int.toNat_of_nonneg low]

/-- A number between the bounds that a handler checks. -/
theorem checked_number {low high default value : Int} (round : Int → Int) (positive : 0 ≤ low)
    (short : high < 2 ^ 31) (inside : low ≤ value ∧ value ≤ high) (rounded : round value = value) :
    checked low high default round (atoiInt (printUnsigned value.toNat)) = value := by
  rw [atoiInt_number (positive.trans inside.1) (inside.2.trans_lt short), checked, if_neg, rounded]
  rintro (below | above)
  · exact absurd inside.1 (not_le.mpr below)
  · exact absurd inside.2 (not_le.mpr above)

/-- A power of two is not rounded. -/
theorem isPower2_self {exponent : Nat} {num offset : Int} (large : 2 ≤ num)
    (power : num + offset = 2 ^ exponent) (positive : 1 ≤ exponent) (inside : exponent < 31) :
    (isPower2 num offset).2 = 2 ^ exponent := by
  have same : num + offset = ((2 ^ exponent : Nat) : Int) := by
    rw [power]
    norm_cast
  rw [isPower2_eq large same le_rfl (Nat.pow_lt_pow_succ Nat.one_lt_two) positive inside]

theorem isToken_printUnsigned (value : Nat) : IsToken (printUnsigned value) := by
  have digits : ∀ c ∈ printUnsigned value, isdigit c = true := fun _ => printUnsigned_digit
  have plain : ∀ c, isdigit c = true → c ≠ 0 ∧ StartsWord c := by
    intro c digit
    have noSpace := not_isspace_of_isdigit digit
    refine ⟨?_, noSpace, ?_, ?_, ?_⟩
    · rintro rfl
      cases digit
    · rw [atEnd, decide_eq_false_iff_not]
      rintro (rfl | rfl | rfl) <;> cases digit
    · rintro rfl
      cases digit
    · rintro rfl
      cases digit
  refine ⟨?_, fun c member => (plain c (digits c member)).2.isWordByte,
    fun member => (plain 0 (digits 0 member)).1 rfl⟩
  obtain ⟨c, rest, parts⟩ := List.exists_cons_of_ne_nil (printUnsigned_ne_nil value)
  exact ⟨c, rest, parts, (plain c (digits c (by simp [parts]))).2⟩

/-! ## What can be written -/

/-- An array that holds a name. -/
structure Named (array : Bytes) : Prop where
  token : IsToken (text array)
  filled : strncpy nameSize (text array) = array

/-- What a file can say of a device, besides the values in range. -/
structure PortConfStream.Writable (device : PortConfStream) : Prop where
  portId : device.portId = -1
  name : Named device.name
  kniName : device.kniName = List.replicate nameSize 0 ∨ Named device.kniName
  rss : Named device.rss
  isRss : isRss (text device.rss) = true

structure QueueConf.Writable (port : QueueConf) : Prop where
  name : Named port.portName
  isolRxqRingSz : 0 ≤ port.isolRxqRingSz ∧ port.isolRxqRingSz < 2 ^ 31

structure WorkerConf.Writable (worker : WorkerConf) : Prop where
  name : Named worker.name
  type : Named worker.type
  isType : text worker.type ∈ [ascii "master", ascii "slave", ascii "kni"]
  cpuId : 0 ≤ worker.cpuId ∧ worker.cpuId < 2 ^ 31
  ports : ∀ port ∈ worker.portList, port.Writable

structure Conf.Writable (conf : Conf) : Prop where
  devices : ∀ device ∈ conf.portList, device.Writable
  workers : ∀ worker ∈ conf.workerList, worker.Writable

/-! ## Settings -/

section Settings

variable {alloc : Nat → Option Stale} {maxLcore : Nat}

theorem assertValue_token {word : Bytes} (token : IsToken word) (keyword : Bytes)
    (rest : List Bytes) : assertValue (keyword :: word :: rest) = some word := by
  obtain ⟨c, behind, rfl, starts⟩ := token.starts
  have noQuote : (c :: behind).head? ≠ some dquote := by
    simpa using starts.noQuote
  rw [assertValue, setValue_cons, if_neg noQuote]
  rfl

/-- The handler is called. -/
def Setting.run (alloc : Nat → Option Stale) (maxLcore : Nat) (conf : Conf) (setting : Setting) :
    Option Conf := setting.handler.run alloc maxLcore conf setting.tokens

theorem run_call (conf : Conf) (setting : Setting) :
    setting.call.run alloc maxLcore (configKeywords .init) conf =
      setting.run alloc maxLcore conf := by
  rw [Call.run, Setting.call, handlerAt_place]
  rfl

/-- The settings lead from a configuration to another. -/
def Makes (alloc : Nat → Option Stale) (maxLcore : Nat) (settings : List Setting)
    (before after : Conf) : Prop :=
  settings.foldlM (Setting.run alloc maxLcore) before = some after

variable {before middle after : Conf} {first second : List Setting} {setting : Setting}

theorem Makes.nil : Makes alloc maxLcore [] before before := rfl

theorem Makes.append (front : Makes alloc maxLcore first before middle)
    (behind : Makes alloc maxLcore second middle after) :
    Makes alloc maxLcore (first ++ second) before after := by
  rw [Makes, List.foldlM_append, front]
  exact behind

theorem Makes.cons (front : setting.run alloc maxLcore before = some middle)
    (behind : Makes alloc maxLcore second middle after) :
    Makes alloc maxLcore (setting :: second) before after := by
  rw [Makes, List.foldlM_cons, front]
  exact behind

theorem Makes.one (ran : setting.run alloc maxLcore before = some after) :
    Makes alloc maxLcore [setting] before after := Makes.cons ran Makes.nil

/-- A handler that takes a value. -/
theorem run_value {handler : Handler} {word : Bytes} {change : Bytes → Conf → Option Conf}
    (takes : ∀ conf tokens, handler.run alloc maxLcore conf tokens =
      (assertValue tokens).bind fun str => change str conf)
    (token : IsToken word) (changed : change word before = some after) :
    Makes alloc maxLcore [⟨handler, [word]⟩] before after := by
  apply Makes.one
  rw [Setting.run, takes, Setting.tokens, assertValue_token token, Option.bind_some, changed]

end Settings

/-! ## Lists -/

/-- A number of allocations. -/
def Conf.allocating (conf : Conf) (count : Nat) : Conf :=
  { conf with allocated := conf.allocated + count }

theorem allocating_allocating (conf : Conf) (first second : Nat) :
    (conf.allocating first).allocating second = conf.allocating (second + first) := by
  rw [Conf.allocating, Conf.allocating, Conf.allocating, Nat.add_assoc, Nat.add_comm first]

/-- Each item is put in front of the others, so that the one that is written first is the last
one of the list. -/
theorem makes_reverse {α : Type} {alloc : Nat → Option Stale} {maxLcore : Nat} {items : List α}
    {settingsOf : α → List Setting} {cost : α → Nat} {place : Conf → List α → Conf}
    (each : ∀ item ∈ items, ∀ conf rest, Makes alloc maxLcore (settingsOf item) (place conf rest)
      (place (conf.allocating (cost item)) (item :: rest))) (conf : Conf) :
    Makes alloc maxLcore (items.reverse.flatMap settingsOf) (place conf [])
      (place (conf.allocating (items.map cost).sum) items) := by
  induction items with
  | nil => exact Makes.nil
  | cons item more ih =>
      obtain ⟨first, others⟩ := List.forall_mem_cons.mp each
      have last := first (conf.allocating (more.map cost).sum) more
      rw [allocating_allocating] at last
      rw [List.reverse_cons, List.flatMap_append, List.flatMap_singleton, List.map_cons,
        List.sum_cons]
      exact Makes.append (ih others) last

/-! ## Devices -/

def Conf.withDevices (conf : Conf) (devices : List PortConfStream) : Conf :=
  { conf with portList := devices }

section Devices

variable {alloc : Nat → Option Stale} {maxLcore : Nat} {conf : Conf} {rest : List PortConfStream}
  {device : PortConfStream}

/-- The device in front is changed. -/
theorem withDevice_front {change : PortConfStream → PortConfStream} {changed : PortConfStream}
    (same : change device = changed) :
    (conf.withDevices (device :: rest)).withDevice change =
      some (conf.withDevices (changed :: rest)) := by
  rw [← same]
  rfl

theorem checked_desc {value default : Int} (power : IsPower 4 13 value) :
    checked NETIF_NB_DESC_MIN NETIF_NB_DESC_MAX default (fun number => (isPower2 number 0).2)
      (atoiInt (printUnsigned value.toNat)) = value := by
  obtain ⟨exponent, low, high, rfl⟩ := power
  have least : (2 : Int) ^ 4 ≤ 2 ^ exponent := pow_le_pow_right₀ (by decide) low
  have greatest : (2 : Int) ^ exponent ≤ 2 ^ 13 := pow_le_pow_right₀ (by decide) high
  refine checked_number _ (by decide) (by decide) ⟨least, greatest⟩ ?_
  exact isPower2_self (le_trans (by decide) least) (Int.add_zero _) (by omega) (by omega)

theorem makes_rxDescNb {value : Int} (power : IsPower 4 13 value) :
    Makes alloc maxLcore [⟨.rxDescNb, number value⟩] (conf.withDevices (device :: rest))
      (conf.withDevices ({ device with rxDescNb := value } :: rest)) := by
  apply run_value (fun _ _ => rfl) (isToken_printUnsigned _)
  apply withDevice_front
  rw [checked_desc power]

theorem makes_txDescNb {value : Int} (power : IsPower 4 13 value) :
    Makes alloc maxLcore [⟨.txDescNb, number value⟩] (conf.withDevices (device :: rest))
      (conf.withDevices ({ device with txDescNb := value } :: rest)) := by
  apply run_value (fun _ _ => rfl) (isToken_printUnsigned _)
  apply withDevice_front
  rw [checked_desc power]

theorem checked_queueNb {value : Int} (inside : -1 ≤ value ∧ value ≤ NETIF_MAX_QUEUES)
    (set : value ≠ -1) :
    checked 0 NETIF_MAX_QUEUES NETIF_MAX_QUEUES id (atoiInt (printUnsigned value.toNat)) =
      value :=
  checked_number id le_rfl (by decide) ⟨by omega, inside.2⟩ rfl

theorem makes_rxQueueNumber {value : Int} (inside : -1 ≤ value ∧ value ≤ NETIF_MAX_QUEUES)
    (unset : device.rxQueueNb = -1) :
    Makes alloc maxLcore (queueNumber .rxQueueNumber value) (conf.withDevices (device :: rest))
      (conf.withDevices ({ device with rxQueueNb := value } :: rest)) := by
  rw [queueNumber]
  split
  next none =>
    rw [none, ← unset]
    exact Makes.nil
  next some =>
    apply run_value (fun _ _ => rfl) (isToken_printUnsigned _)
    apply withDevice_front
    rw [checked_queueNb inside some]

theorem makes_txQueueNumber {value : Int} (inside : -1 ≤ value ∧ value ≤ NETIF_MAX_QUEUES)
    (unset : device.txQueueNb = -1) :
    Makes alloc maxLcore (queueNumber .txQueueNumber value) (conf.withDevices (device :: rest))
      (conf.withDevices ({ device with txQueueNb := value } :: rest)) := by
  rw [queueNumber]
  split
  next none =>
    rw [none, ← unset]
    exact Makes.nil
  next some =>
    apply run_value (fun _ _ => rfl) (isToken_printUnsigned _)
    apply withDevice_front
    rw [checked_queueNb inside some]

theorem makes_rss {array : Bytes} (named : Named array) (known : isRss (text array) = true) :
    Makes alloc maxLcore [⟨.rss, [text array]⟩] (conf.withDevices (device :: rest))
      (conf.withDevices ({ device with rss := array } :: rest)) := by
  apply run_value (fun _ _ => rfl) named.token
  apply withDevice_front
  rw [if_pos known, named.filled]

theorem isToken_onOff (value : Bool) : IsToken (if value then ascii "on" else ascii "off") := by
  cases value <;> decide +kernel

theorem makes_txMbufFastFree (value : Bool) :
    Makes alloc maxLcore [⟨.txMbufFastFree, [if value then ascii "on" else ascii "off"]⟩]
      (conf.withDevices (device :: rest))
      (conf.withDevices ({ device with txMbufFastFree := value } :: rest)) := by
  have off : sameIgnoringCase (ascii "off") (ascii "off") = true := by decide +kernel
  have on : sameIgnoringCase (ascii "on") (ascii "off") = false := by decide +kernel
  apply run_value (fun _ _ => rfl) (isToken_onOff value)
  apply withDevice_front
  cases value with
  | false => rw [if_neg Bool.false_ne_true, off, Bool.not_true]
  | true => rw [if_pos rfl, on, Bool.not_false]

theorem makes_promiscMode (value : Bool) (off : device.promiscMode = false) :
    Makes alloc maxLcore (flag .promiscMode value) (conf.withDevices (device :: rest))
      (conf.withDevices ({ device with promiscMode := value } :: rest)) := by
  cases value with
  | false =>
      have same : ({ device with promiscMode := false } : PortConfStream) = device := by rw [← off]
      rw [same]
      exact Makes.nil
  | true => exact Makes.one rfl

theorem makes_allmulticast (value : Bool) (off : device.allmulticast = false) :
    Makes alloc maxLcore (flag .allmulticast value) (conf.withDevices (device :: rest))
      (conf.withDevices ({ device with allmulticast := value } :: rest)) := by
  cases value with
  | false =>
      have same : ({ device with allmulticast := false } : PortConfStream) = device := by rw [← off]
      rw [same]
      exact Makes.nil
  | true => exact Makes.one rfl

theorem makes_customMtu {value : Int} (inside : 1 ≤ value ∧ value ≤ NETIF_MAX_ETH_MTU) :
    Makes alloc maxLcore [⟨.customMtu, number value⟩] (conf.withDevices (device :: rest))
      (conf.withDevices ({ device with mtu := value } :: rest)) := by
  apply run_value (fun _ _ => rfl) (isToken_printUnsigned _)
  apply withDevice_front
  rw [checked_number id (by decide) (by decide) inside rfl]

theorem makes_kniName {array : Bytes}
    (writable : array = List.replicate nameSize 0 ∨ Named array)
    (unset : device.kniName = List.replicate nameSize 0) :
    Makes alloc maxLcore (if text array = [] then [] else [⟨.kniName, [text array]⟩])
      (conf.withDevices (device :: rest))
      (conf.withDevices ({ device with kniName := array } :: rest)) := by
  cases writable with
  | inl zeros =>
      have same : ({ device with kniName := array } : PortConfStream) = device := by
        rw [zeros, ← unset]
      rw [same, zeros, if_pos (by decide)]
      exact Makes.nil
  | inr named =>
      obtain ⟨c, behind, parts, -⟩ := named.token.starts
      rw [if_neg (by simp [parts])]
      apply run_value (fun _ _ => rfl) named.token
      apply withDevice_front
      rw [named.filled]

theorem getElem?_opening (handler : Handler) (word : Bytes) :
    (handler.opening [word]).tokens[1]? = some word := rfl

/-- A new device. -/
theorem makes_opening (memory : ∀ n, (alloc n).isSome) (named : Named device.name) :
    device.opening.run alloc maxLcore (conf.withDevices rest) =
      some ((conf.allocating 1).withDevices ({ name := device.name } :: rest)) := by
  obtain ⟨stale, found⟩ := Option.isSome_iff_exists.mp (memory conf.allocated)
  rw [PortConfStream.opening, Setting.run]
  change deviceHandler alloc (Handler.device.opening [text device.name]).tokens _ = _
  rw [deviceHandler, Conf.allocate]
  dsimp only [Conf.withDevices]
  rw [found]
  dsimp only
  rw [getElem?_opening, Option.bind_eq_bind, Option.bind_some, named.filled]
  rfl

section Written

variable {written : PortConfStream}

theorem makes_rxSettings (inRange : written.InRange) (writable : written.Writable)
    (unset : device.rxQueueNb = -1) :
    Makes alloc maxLcore written.rxSettings (conf.withDevices (device :: rest))
      (conf.withDevices ({ device with
        rxQueueNb := written.rxQueueNb
        rxDescNb := written.rxDescNb
        rss := written.rss } :: rest)) :=
  Makes.append (makes_rxQueueNumber inRange.rxQueueNb unset)
    (Makes.append (makes_rxDescNb inRange.rxDescNb) (makes_rss writable.rss writable.isRss))

theorem makes_txSettings (inRange : written.InRange) (unset : device.txQueueNb = -1) :
    Makes alloc maxLcore written.txSettings (conf.withDevices (device :: rest))
      (conf.withDevices ({ device with
        txQueueNb := written.txQueueNb
        txDescNb := written.txDescNb
        txMbufFastFree := written.txMbufFastFree } :: rest)) :=
  Makes.append (makes_txQueueNumber inRange.txQueueNb unset)
    (Makes.append (makes_txDescNb inRange.txDescNb) (makes_txMbufFastFree written.txMbufFastFree))

theorem makes_otherSettings (inRange : written.InRange) (writable : written.Writable)
    (promiscOff : device.promiscMode = false) (multicastOff : device.allmulticast = false)
    (unset : device.kniName = List.replicate nameSize 0) :
    Makes alloc maxLcore written.otherSettings (conf.withDevices (device :: rest))
      (conf.withDevices ({ device with
        promiscMode := written.promiscMode
        allmulticast := written.allmulticast
        mtu := written.mtu
        kniName := written.kniName } :: rest)) := by
  apply Makes.append
  · apply Makes.append
    · exact Makes.append (makes_promiscMode _ promiscOff) (makes_allmulticast _ multicastOff)
    · exact makes_customMtu inRange.mtu
  · exact makes_kniName writable.kniName unset

/-- **One device.** The settings of a device put it in front of the others. -/
theorem makes_device (memory : ∀ n, (alloc n).isSome) (inRange : written.InRange)
    (writable : written.Writable) :
    Makes alloc maxLcore written.settings (conf.withDevices rest)
      ((conf.allocating 1).withDevices (written :: rest)) := by
  have opened : written.opening.run alloc maxLcore (conf.withDevices rest) = _ :=
    makes_opening memory writable.name
  have whole := Makes.cons opened
    (Makes.append (makes_rxSettings inRange writable rfl)
      (Makes.append (makes_txSettings inRange rfl)
        (makes_otherSettings inRange writable rfl rfl rfl)))
  have port := writable.portId
  obtain ⟨portId, name, kniName, rxQueueNb, rxDescNb, rss, mtu, txQueueNb, txDescNb,
    txMbufFastFree, promiscMode, allmulticast⟩ := written
  cases port
  exact whole

end Written

end Devices

/-! ## Queues -/

section Queues

/-- Where the entries that are kept are those in front, filtering is taking. -/
theorem filter_eq_take {α : Type} {p : α → Bool} {items : List α} {count : Nat}
    (front : ∀ index item, items[index]? = some item → (p item = true ↔ index < count)) :
    items.filter p = items.take count := by
  induction items generalizing count with
  | nil => simp
  | cons item items ih =>
      have first := front 0 item rfl
      cases count with
      | zero =>
          have none : ∀ other ∈ item :: items, ¬p other = true := by
            intro other member
            obtain ⟨index, here⟩ := List.mem_iff_getElem?.mp member
            exact fun kept => Nat.not_lt_zero _ ((front index other here).mp kept)
          rw [List.filter_eq_nil_iff.mpr none, List.take_zero]
      | succ count =>
          rw [List.filter_cons_of_pos (first.mpr (Nat.succ_pos _)), List.take_succ_cons, ih]
          intro index other here
          exact (front (index + 1) other here).trans Nat.succ_lt_succ_iff

variable {ids : Fin NETIF_MAX_QUEUES → Nat}

theorem getElem?_ofFn (index : Nat) (id : Nat) :
    (List.ofFn ids)[index]? = some id ↔ ∃ inside : index < NETIF_MAX_QUEUES, ids ⟨index, inside⟩ =
      id := by
  rw [List.getElem?_ofFn]
  split
  next inside => simp [inside]
  next outside => simp [outside]

/-- The ids that are used, and unused space behind them. -/
theorem usedIds_getD (filled : Filled ids) (ii : Fin NETIF_MAX_QUEUES) :
    (usedIds ids)[ii.val]?.getD NETIF_MAX_QUEUES = ids ii := by
  obtain ⟨count, used⟩ := filled
  have taken : usedIds ids = (List.ofFn ids).take count := by
    apply filter_eq_take
    intro index id here
    obtain ⟨inside, rfl⟩ := (getElem?_ofFn index id).mp here
    rw [decide_eq_true_iff]
    exact (used ⟨index, inside⟩).2
  have here := (getElem?_ofFn ii.val (ids ii)).mpr ⟨ii.isLt, rfl⟩
  rw [taken, List.getElem?_take]
  split
  next inside => rw [here, Option.getD_some]
  next outside =>
    have full := mt (used ii).2.mp outside
    rw [Option.getD_none]
    exact le_antisymm (not_lt.mp full) (used ii).1

theorem mem_usedIds {id : Nat} (member : id ∈ usedIds ids) : id < NETIF_MAX_QUEUES := by
  simpa using List.of_mem_filter member

theorem length_usedIds : (usedIds ids).length ≤ NETIF_MAX_QUEUES :=
  (List.length_filter_le _ _).trans (List.length_ofFn).le

theorem queueId_printUnsigned {id : Nat} (small : id < NETIF_MAX_QUEUES) :
    queueId (printUnsigned id) = id := by
  have short : id < 2 ^ 31 := small.trans (by decide)
  rw [queueId, atoiInt_printUnsigned short, if_neg, Int.toNat_natCast]
  rintro (negative | large)
  · exact absurd negative (not_lt.mpr (Int.natCast_nonneg id))
  · exact absurd small (not_lt.mpr (by exact_mod_cast large))

theorem queueIds_usedIds (filled : Filled ids) (keyword : Bytes) :
    queueIds (keyword :: (usedIds ids).map printUnsigned) = some ids := by
  have read : ((usedIds ids).map printUnsigned).map queueId = usedIds ids := by
    rw [List.map_map]
    conv_rhs => rw [← List.map_id (usedIds ids)]
    exact List.map_congr_left fun id member => queueId_printUnsigned (mem_usedIds member)
  rw [queueIds, List.tail_cons, read, if_pos length_usedIds]
  exact congrArg some (funext fun ii => usedIds_getD filled ii)

theorem isolRxCpuId_isolId {maxLcore id : Nat} (short : maxLcore ≤ 2 ^ 31)
    (valid : id = NETIF_LCORE_ID_INVALID ∨ 0 < id ∧ id < maxLcore) :
    isolRxCpuId maxLcore (isolId id) = id := by
  rw [isolId, isolRxCpuId]
  by_cases invalid : id = NETIF_LCORE_ID_INVALID
  · rw [if_pos invalid, atoiInt_printUnsigned (by decide), if_pos (Or.inl (by decide)), invalid]
  · obtain ⟨positive, below⟩ := valid.resolve_left invalid
    rw [if_neg invalid, atoiInt_printUnsigned (by omega), if_neg (by omega), Int.toNat_natCast]

end Queues

/-! ## Workers -/

def Conf.withWorkers (conf : Conf) (workers : List WorkerConf) : Conf :=
  { conf with workerList := workers }

section Workers

variable {alloc : Nat → Option Stale} {maxLcore : Nat} {conf : Conf} {rest : List WorkerConf}
  {worker : WorkerConf} {port : QueueConf} {ports : List QueueConf}

/-- The worker in front is changed. -/
theorem withWorker_front {change : WorkerConf → WorkerConf} {changed : WorkerConf}
    (same : change worker = changed) :
    (conf.withWorkers (worker :: rest)).withWorker change =
      some (conf.withWorkers (changed :: rest)) := by
  rw [← same]
  rfl

/-- The port in front is changed. -/
theorem withPort_front {change : QueueConf → QueueConf} {changed : QueueConf}
    (same : change port = changed) :
    (conf.withWorkers ({ worker with portList := port :: ports } :: rest)).withPort change =
      some (conf.withWorkers ({ worker with portList := changed :: ports } :: rest)) := by
  rw [← same]
  rfl

theorem makes_workerType {array : Bytes} (named : Named array)
    (known : text array ∈ [ascii "master", ascii "slave", ascii "kni"]) :
    Makes alloc maxLcore [⟨.workerType, [text array]⟩] (conf.withWorkers (worker :: rest))
      (conf.withWorkers ({ worker with type := array } :: rest)) := by
  apply run_value (fun _ _ => rfl) named.token
  apply withWorker_front
  rw [if_pos known, named.filled]

theorem all_isdigit (value : Nat) : (printUnsigned value).all isdigit = true :=
  List.all_eq_true.mpr fun _ => printUnsigned_digit

theorem makes_cpuId {value : Int} (inside : 0 ≤ value ∧ value < 2 ^ 31) :
    Makes alloc maxLcore [⟨.cpuId, number value⟩] (conf.withWorkers (worker :: rest))
      (conf.withWorkers ({ worker with cpuId := value } :: rest)) := by
  apply run_value (fun _ _ => rfl) (isToken_printUnsigned _)
  apply withWorker_front
  rw [if_pos (all_isdigit _), atoiInt_number inside.1 inside.2]

theorem makes_rxQueueIds {ids : Fin NETIF_MAX_QUEUES → Nat} (filled : Filled ids) :
    Makes alloc maxLcore [⟨.rxQueueIds, (usedIds ids).map printUnsigned⟩]
      (conf.withWorkers ({ worker with portList := port :: ports } :: rest))
      (conf.withWorkers
        ({ worker with portList := { port with rxQueues := ids } :: ports } :: rest)) := by
  apply Makes.one
  change rxQueueIdsHandler (Handler.rxQueueIds.str :: _) _ = _
  rw [rxQueueIdsHandler, queueIds_usedIds filled, Option.bind_eq_bind, Option.bind_some]
  exact withPort_front rfl

theorem makes_txQueueIds {ids : Fin NETIF_MAX_QUEUES → Nat} (filled : Filled ids) :
    Makes alloc maxLcore [⟨.txQueueIds, (usedIds ids).map printUnsigned⟩]
      (conf.withWorkers ({ worker with portList := port :: ports } :: rest))
      (conf.withWorkers
        ({ worker with portList := { port with txQueues := ids } :: ports } :: rest)) := by
  apply Makes.one
  change txQueueIdsHandler (Handler.txQueueIds.str :: _) _ = _
  rw [txQueueIdsHandler, queueIds_usedIds filled, Option.bind_eq_bind, Option.bind_some]
  exact withPort_front rfl

theorem makes_isolRxCpuIds {ids : Fin NETIF_MAX_QUEUES → Nat} (short : maxLcore ≤ 2 ^ 31)
    (valid : ∀ ii, ids ii = NETIF_LCORE_ID_INVALID ∨ 0 < ids ii ∧ ids ii < maxLcore) :
    Makes alloc maxLcore [⟨.isolRxCpuIds, (List.ofFn ids).map isolId⟩]
      (conf.withWorkers ({ worker with portList := port :: ports } :: rest))
      (conf.withWorkers
        ({ worker with portList := { port with isolRxqLcoreIds := ids } :: ports } :: rest)) := by
  have enough : 2 ≤ (Handler.isolRxCpuIds.str :: (List.ofFn ids).map isolId).length := by
    rw [List.length_cons, List.length_map, List.length_ofFn]
    decide
  obtain ⟨value, found⟩ := Option.isSome_iff_exists.mp (setValue_isSome.mpr enough)
  have read : ((List.ofFn ids).map isolId).map (isolRxCpuId maxLcore) = List.ofFn ids := by
    rw [List.map_map]
    conv_rhs => rw [← List.map_id (List.ofFn ids)]
    refine List.map_congr_left fun id member => ?_
    obtain ⟨ii, rfl⟩ := List.mem_ofFn.mp member
    exact isolRxCpuId_isolId short (valid ii)
  apply Makes.one
  change isolRxCpuIdsHandler maxLcore (Handler.isolRxCpuIds.str :: _) _ = _
  rw [isolRxCpuIdsHandler, found, Option.bind_eq_bind, Option.bind_some]
  dsimp only
  rw [List.tail_cons, read, if_pos (List.length_ofFn).le]
  apply withPort_front
  have all : (fun ii : Fin NETIF_MAX_QUEUES =>
      (List.ofFn ids)[ii.val]?.getD (port.isolRxqLcoreIds ii)) = ids := by
    funext ii
    rw [(getElem?_ofFn ii.val (ids ii)).mpr ⟨ii.isLt, rfl⟩, Option.getD_some]
  rw [all]

theorem makes_isolRxqRingSz {value : Int} (inside : 0 ≤ value ∧ value < 2 ^ 31) :
    Makes alloc maxLcore [⟨.isolRxqRingSz, number value⟩]
      (conf.withWorkers ({ worker with portList := port :: ports } :: rest))
      (conf.withWorkers
        ({ worker with portList := { port with isolRxqRingSz := value } :: ports } :: rest)) := by
  apply run_value (fun _ _ => rfl) (isToken_printUnsigned _)
  apply withPort_front
  rw [if_pos (all_isdigit _), atoiInt_number inside.1 inside.2]

section Written

variable {written : QueueConf} {wholly : WorkerConf}

/-- The port without queues. -/
theorem emptyPort_named {array : Bytes} (named : Named array) :
    emptyPort (text array) = { emptyPort [] with portName := array } := by
  rw [emptyPort, named.filled]
  rfl

theorem makes_portOpening (memory : ∀ n, (alloc n).isSome) (named : Named written.portName) :
    written.opening.run alloc maxLcore (conf.withWorkers (worker :: rest)) =
      some ((conf.allocating 1).withWorkers
        ({ worker with
          portList := { emptyPort [] with portName := written.portName } :: worker.portList } ::
            rest)) := by
  obtain ⟨stale, found⟩ := Option.isSome_iff_exists.mp (memory conf.allocated)
  rw [QueueConf.opening, Setting.run, ← emptyPort_named named]
  change workerPortHandler alloc (Handler.workerPort.opening [text written.portName]).tokens _ = _
  rw [workerPortHandler, Conf.allocate]
  dsimp only [Conf.withWorkers]
  rw [found]
  dsimp only
  rw [getElem?_opening, Option.bind_eq_bind, Option.bind_some]
  rfl

/-- **One port.** The settings of a port put it in front of the others of the worker. -/
theorem makes_port (memory : ∀ n, (alloc n).isSome) (short : maxLcore ≤ 2 ^ 31)
    (inRange : written.InRange maxLcore) (writable : written.Writable) :
    Makes alloc maxLcore written.settings
      (conf.withWorkers ({ worker with portList := ports } :: rest))
      ((conf.allocating 1).withWorkers
        ({ worker with portList := written :: ports } :: rest)) := by
  apply Makes.cons (makes_portOpening memory writable.name)
  apply Makes.append (makes_rxQueueIds inRange.rxQueues)
  apply Makes.append (makes_txQueueIds inRange.txQueues)
  apply Makes.append (makes_isolRxCpuIds short inRange.isolRxqLcoreIds)
  exact makes_isolRxqRingSz writable.isolRxqRingSz

theorem makes_workerOpening (memory : ∀ n, (alloc n).isSome) (named : Named wholly.name) :
    ∃ cpuId type, wholly.opening.run alloc maxLcore (conf.withWorkers rest) =
      some ((conf.allocating 1).withWorkers
        ({ cpuId, type, name := wholly.name, portList := [] } :: rest)) := by
  obtain ⟨⟨cpuId, type⟩, found⟩ := Option.isSome_iff_exists.mp (memory conf.allocated)
  refine ⟨cpuId, type, ?_⟩
  rw [WorkerConf.opening, Setting.run]
  change workerHandler alloc (Handler.worker.opening [text wholly.name]).tokens _ = _
  rw [workerHandler, Conf.allocate]
  dsimp only [Conf.withWorkers]
  rw [found]
  dsimp only
  rw [getElem?_opening, Option.bind_eq_bind, Option.bind_some, named.filled]
  rfl

/-- The allocations for a worker. -/
def WorkerConf.nodes (worker : WorkerConf) : Nat := (worker.portList.map fun _ => 1).sum + 1

/-- **One worker.** The settings of a worker put it in front of the others. -/
theorem makes_worker (memory : ∀ n, (alloc n).isSome) (short : maxLcore ≤ 2 ^ 31)
    (inRange : ∀ port ∈ wholly.portList, port.InRange maxLcore) (writable : wholly.Writable) :
    Makes alloc maxLcore wholly.settings (conf.withWorkers rest)
      ((conf.allocating wholly.nodes).withWorkers (wholly :: rest)) := by
  obtain ⟨cpuId, type, opened⟩ : ∃ cpuId type,
      wholly.opening.run alloc maxLcore (conf.withWorkers rest) =
        some ((conf.allocating 1).withWorkers
          ({ cpuId, type, name := wholly.name, portList := [] } :: rest)) :=
    makes_workerOpening memory writable.name
  let place (conf : Conf) (ports : List QueueConf) : Conf :=
    conf.withWorkers ({ wholly with portList := ports } :: rest)
  have each : ∀ port ∈ wholly.portList, ∀ conf ports,
      Makes alloc maxLcore port.settings (place conf ports)
        (place (conf.allocating 1) (port :: ports)) := by
    intro port member conf ports
    exact makes_port memory short (inRange port member) (writable.ports port member)
  have ports := makes_reverse each (conf.allocating 1)
  rw [allocating_allocating] at ports
  apply Makes.cons opened
  refine Makes.append ?_ ports
  exact Makes.append (makes_workerType writable.type writable.isType) (makes_cpuId writable.cpuId)

end Written

end Workers

/-! ## The configuration -/

section Configuration

variable {alloc : Nat → Option Stale} {maxLcore : Nat} {conf before : Conf}

theorem makes_pktpoolSize {value : Int} (power : IsPower 10 27 (value + 1)) :
    Makes alloc maxLcore [⟨.pktpoolSize, number value⟩] before
      { before with pktpoolNbMbuf := value } := by
  obtain ⟨exponent, low, high, same⟩ := power
  have least : (2 : Int) ^ 10 ≤ 2 ^ exponent := pow_le_pow_right₀ (by decide) low
  have greatest : (2 : Int) ^ exponent ≤ 2 ^ 27 := pow_le_pow_right₀ (by decide) high
  have kept : checked NETIF_PKTPOOL_NB_MBUF_MIN NETIF_PKTPOOL_NB_MBUF_MAX
      NETIF_PKTPOOL_NB_MBUF_DEF (fun size => (isPower2 size 1).2 - 1)
      (atoiInt (printUnsigned value.toNat)) = value := by
    have low : NETIF_PKTPOOL_NB_MBUF_MIN ≤ value := by
      rw [NETIF_PKTPOOL_NB_MBUF_MIN]
      omega
    have high : value ≤ NETIF_PKTPOOL_NB_MBUF_MAX := by
      rw [NETIF_PKTPOOL_NB_MBUF_MAX]
      omega
    refine checked_number _ (by decide) (by decide) ⟨low, high⟩ ?_
    rw [isPower2_self (by omega) same (by omega) (by omega), ← same, Int.add_sub_cancel]
  apply run_value (fun _ _ => rfl) (isToken_printUnsigned _)
  rw [kept]
  rfl

theorem makes_pktpoolCache {value : Int} (power : IsPower 5 13 value) :
    Makes alloc maxLcore [⟨.pktpoolCache, number value⟩] before
      { before with pktpoolMbufCache := value } := by
  obtain ⟨exponent, low, high, rfl⟩ := power
  have least : (2 : Int) ^ 5 ≤ 2 ^ exponent := pow_le_pow_right₀ (by decide) low
  have greatest : (2 : Int) ^ exponent ≤ 2 ^ 13 := pow_le_pow_right₀ (by decide) high
  have kept : checked NETIF_PKTPOOL_MBUF_CACHE_MIN NETIF_PKTPOOL_MBUF_CACHE_MAX
      NETIF_PKTPOOL_MBUF_CACHE_DEF (fun size => (isPower2 size 0).2)
      (atoiInt (printUnsigned ((2 : Int) ^ exponent).toNat)) = 2 ^ exponent := by
    refine checked_number _ (by decide) (by decide) ⟨least, greatest⟩ ?_
    exact isPower2_self (le_trans (by decide) least) (Int.add_zero _) (by omega) (by omega)
  apply run_value (fun _ _ => rfl) (isToken_printUnsigned _)
  rw [kept]
  rfl

theorem makes_schedInterval {value : Int}
    (inside : TIMER_SCHED_INTERVAL_MIN ≤ value ∧ value ≤ TIMER_SCHED_INTERVAL_MAX) :
    Makes alloc maxLcore [⟨.timerSchedInterval, number value⟩] before
      { before with schedInterval := value } := by
  have token := isToken_printUnsigned value.toNat
  have found : setValue (Setting.tokens ⟨.timerSchedInterval, number value⟩) =
      some (some (printUnsigned value.toNat)) :=
    Option.join_eq_some_iff.mp (assertValue_token token Handler.timerSchedInterval.str [])
  apply Makes.one
  change timerSchedIntervalHandler _ _ = _
  rw [timerSchedIntervalHandler, found, Option.bind_eq_bind, Option.bind_some]
  dsimp only
  rw [checked_number id (by decide) (by decide) inside rfl]
  rfl

/-- The allocations for all devices and workers. -/
def Conf.nodes (conf : Conf) : Nat :=
  (conf.workerList.map WorkerConf.nodes).sum + (conf.portList.map fun _ => 1).sum

/-- **The whole configuration.** Whatever was configured, the settings of a configuration make
that configuration. -/
theorem makes_conf (memory : ∀ n, (alloc n).isSome) (short : maxLcore ≤ 2 ^ 31)
    (inRange : conf.InRange maxLcore) (writable : conf.Writable) :
    Makes alloc maxLcore conf.settings before
      { conf with allocated := before.allocated + conf.nodes } := by
  have devices : ∀ device ∈ conf.portList, ∀ conf rest,
      Makes alloc maxLcore device.settings (Conf.withDevices conf rest)
        ((conf.allocating 1).withDevices (device :: rest)) := by
    intro device member _ _
    exact makes_device memory (inRange.devices device member) (writable.devices device member)
  have workers : ∀ worker ∈ conf.workerList, ∀ conf rest,
      Makes alloc maxLcore worker.settings (Conf.withWorkers conf rest)
        ((conf.allocating worker.nodes).withWorkers (worker :: rest)) := by
    intro worker member _ _
    exact makes_worker memory short (inRange.ports worker member) (writable.workers worker member)
  let pool : Conf := { before with
    pktpoolNbMbuf := conf.pktpoolNbMbuf
    pktpoolMbufCache := conf.pktpoolMbufCache }
  have pools : Makes alloc maxLcore conf.poolSettings (before.withDevices [])
      (pool.withDevices []) :=
    Makes.append (makes_pktpoolSize inRange.pktpoolNbMbuf)
      (makes_pktpoolCache inRange.pktpoolMbufCache)
  have allDevices := makes_reverse devices pool
  generalize counted : (conf.portList.map fun _ => 1).sum = count at allDevices
  have allWorkers := makes_reverse workers ((pool.allocating count).withDevices conf.portList)
  have opensNetif : (Handler.netifDefs.opening []).run alloc maxLcore before =
      some (before.withDevices []) := rfl
  have opensWorkers : (Handler.workerDefs.opening []).run alloc maxLcore
      ((pool.allocating count).withDevices conf.portList) =
        some (((pool.allocating count).withDevices conf.portList).withWorkers []) := rfl
  have whole := Makes.append (Makes.cons opensNetif (Makes.append pools allDevices))
    (Makes.append (Makes.cons opensWorkers allWorkers)
      (makes_schedInterval inRange.schedInterval))
  rw [Conf.nodes, counted, Nat.add_comm _ count, ← Nat.add_assoc]
  exact whole

end Configuration

end NetDefender.Config
