import NetDefender.Config.Reloading
import NetDefender.Config.Settings

/-!
# A configuration and its file

Every configuration in range can be written into a file, and is read back from each file that
lays it out.
-/

namespace NetDefender.Config

open CString Netif Output

/-! ## Lines -/

/-- The lines of the entries can be written. -/
def Written (entries : List Entry) : Prop := ∀ tokens ∈ sectionTokens entries, Writes tokens

section Lines

variable {entries more body : List Entry} {tokens : List Bytes} {settings : List Setting}

theorem written_nil : Written [] := by
  intro tokens member
  rw [sectionTokens] at member
  cases member

theorem Written.append (first : Written entries) (second : Written more) :
    Written (entries ++ more) := by
  induction entries with
  | nil => exact second
  | cons entry entries ih =>
      rw [Written, sectionTokens] at first
      obtain ⟨front, behind⟩ := List.forall_mem_append.mp first
      rw [List.cons_append, Written, sectionTokens]
      exact List.forall_mem_append.mpr ⟨front, ih behind⟩

theorem written_line (writes : Writes tokens) (rest : Written entries) :
    Written (.line tokens :: entries) := by
  rw [Written, sectionTokens, Entry.tokenLists]
  exact List.forall_mem_cons.mpr ⟨writes, rest⟩

theorem written_block (writes : Writes tokens) (inside : Written body) (rest : Written entries) :
    Written (.block tokens body :: entries) := by
  rw [Written, sectionTokens, Entry.tokenLists]
  exact List.forall_mem_append.mpr ⟨List.forall_mem_cons.mpr ⟨writes, inside⟩, rest⟩

theorem written_settings (all : ∀ setting ∈ settings, Writes setting.tokens) :
    Written (settings.map Setting.line) := by
  induction settings with
  | nil => exact written_nil
  | cons setting settings ih =>
      obtain ⟨first, others⟩ := List.forall_mem_cons.mp all
      exact written_line first (ih others)

theorem written_map {α : Type} {items : List α} {entryOf : α → Entry}
    (each : ∀ item ∈ items, Written [entryOf item]) : Written (items.map entryOf) := by
  induction items with
  | nil => exact written_nil
  | cons item items ih =>
      obtain ⟨first, others⟩ := List.forall_mem_cons.mp each
      exact Written.append first (ih others)

/-! ### Lengths -/

theorem length_lineText_le {width : Nat} (short : ∀ word ∈ tokens, word.length ≤ width) :
    (lineText tokens).length ≤ (width + 1) * tokens.length := by
  induction tokens with
  | nil => simp [lineText]
  | cons word rest ih =>
      obtain ⟨first, others⟩ := List.forall_mem_cons.mp short
      have later := ih others
      cases rest with
      | nil =>
          rw [lineText_singleton, List.length_singleton]
          omega
      | cons next rest =>
          rw [lineText_cons, List.length_append, List.length_cons, List.length_cons, Nat.mul_succ]
          omega

example : (lineText [ascii "rss", ascii "all"]).length = 7 := by decide +kernel

theorem length_str (handler : Handler) : handler.str.length ≤ nameSize := by
  cases handler <;> decide +kernel

theorem isToken_str (handler : Handler) : IsToken handler.str := by
  cases handler <;> decide +kernel

theorem str_ne_include (handler : Handler) : handler.str ≠ ascii "include" := by
  cases handler <;> decide +kernel

/-- A word that fits an array. -/
structure Short (word : Bytes) : Prop where
  token : IsToken word
  fits : word.length ≤ nameSize

/-- At most the ids of all queues and a brace stand behind a keyword. -/
theorem writes_setting {setting : Setting} (words : ∀ word ∈ setting.args, Short word)
    (few : setting.args.length ≤ NETIF_MAX_QUEUES) : Writes setting.tokens := by
  have fits : ∀ word ∈ setting.tokens, word.length ≤ nameSize :=
    List.forall_mem_cons.mpr ⟨length_str _, fun word member => (words word member).fits⟩
  refine ⟨List.cons_ne_nil _ _, ?_, ?_, ?_⟩
  · exact List.forall_mem_cons.mpr ⟨isToken_str _, fun word member => (words word member).token⟩
  · have count : setting.tokens.length ≤ 17 := Nat.succ_le_succ few
    calc (lineText setting.tokens).length
        ≤ (nameSize + 1) * setting.tokens.length := length_lineText_le fits
      _ ≤ (nameSize + 1) * 17 := Nat.mul_le_mul_left _ count
      _ < CFG_FILE_MAX_BUF_SZ := by decide
  · simpa [Setting.tokens] using str_ne_include setting.handler

theorem short_printUnsigned {value : Nat} (small : value < 10 ^ 32) :
    Short (printUnsigned value) :=
  ⟨isToken_printUnsigned value, length_printUnsigned (by decide) small⟩

theorem Named.short {array : Bytes} (named : Named array) : Short (text array) := by
  refine ⟨named.token, ?_⟩
  have whole : array.length ≤ nameSize := by
    rw [← named.filled, strncpy]
    exact List.length_take_le _ _
  exact (List.takeWhile_sublist _).length_le.trans whole

/-! ### The file -/

variable {device : PortConfStream} {port : QueueConf} {worker : WorkerConf} {conf : Conf}
  {maxLcore : Nat}

/-- A setting with one word. -/
theorem writes_one {handler : Handler} {word : Bytes} (short : Short word) :
    Writes (Setting.tokens ⟨handler, [word]⟩) :=
  writes_setting (List.forall_mem_singleton.mpr short) (Nat.le_of_ble_eq_true rfl)

theorem writes_number {handler : Handler} {value : Int} (small : value < 10 ^ 32) :
    Writes (Setting.tokens ⟨handler, number value⟩) :=
  writes_one (short_printUnsigned (by omega))

theorem short_openBrace : Short openBrace := ⟨by decide +kernel, by decide +kernel⟩

theorem writes_brace (handler : Handler) : Writes (handler.opening []).tokens :=
  writes_one short_openBrace

theorem writes_named {handler : Handler} {array : Bytes} (named : Named array) :
    Writes (handler.opening [text array]).tokens := by
  apply writes_setting
  · exact List.forall_mem_cons.mpr ⟨named.short, List.forall_mem_singleton.mpr short_openBrace⟩
  · exact Nat.le_of_ble_eq_true rfl

theorem writes_power {handler : Handler} {low high : Nat} {value : Int}
    (power : IsPower low high value) (small : high ≤ 100) :
    Writes (Setting.tokens ⟨handler, number value⟩) := by
  obtain ⟨exponent, -, upper, rfl⟩ := power
  apply writes_number
  calc (2 : Int) ^ exponent ≤ 2 ^ 100 := pow_le_pow_right₀ (by decide) (upper.trans small)
    _ < 10 ^ 32 := by decide

theorem writes_queueNumber {handler : Handler} {value : Int} (small : value ≤ NETIF_MAX_QUEUES) :
    ∀ setting ∈ queueNumber handler value, Writes setting.tokens := by
  rw [queueNumber]
  split
  next => exact List.forall_mem_nil _
  next =>
    have bound : value < 10 ^ 32 := small.trans_lt (by decide)
    exact List.forall_mem_singleton.mpr (writes_number bound)

theorem writes_flag {handler : Handler} (value : Bool) :
    ∀ setting ∈ flag handler value, Writes setting.tokens := by
  rw [flag]
  split
  next => exact List.forall_mem_singleton.mpr (writes_setting (by simp) (Nat.zero_le _))
  next => exact List.forall_mem_nil _

theorem written_rx (inRange : device.InRange) (writable : device.Writable) :
    Written (device.rxSettings.map Setting.line) := by
  apply written_settings
  refine List.forall_mem_append.mpr ⟨writes_queueNumber inRange.rxQueueNb.2, ?_⟩
  refine List.forall_mem_cons.mpr ⟨writes_power inRange.rxDescNb (by decide), ?_⟩
  exact List.forall_mem_singleton.mpr (writes_one writable.rss.short)

theorem written_tx (inRange : device.InRange) : Written (device.txSettings.map Setting.line) := by
  have short : Short (if device.txMbufFastFree then ascii "on" else ascii "off") :=
    ⟨isToken_onOff _, by cases device.txMbufFastFree <;> decide +kernel⟩
  apply written_settings
  refine List.forall_mem_append.mpr ⟨writes_queueNumber inRange.txQueueNb.2, ?_⟩
  refine List.forall_mem_cons.mpr ⟨writes_power inRange.txDescNb (by decide), ?_⟩
  exact List.forall_mem_singleton.mpr (writes_one short)

theorem written_others (inRange : device.InRange) (writable : device.Writable) :
    Written (device.otherSettings.map Setting.line) := by
  have mtu : device.mtu < 10 ^ 32 := inRange.mtu.2.trans_lt (by decide)
  apply written_settings
  refine List.forall_mem_append.mpr ⟨List.forall_mem_append.mpr ⟨?_, ?_⟩, ?_⟩
  · exact List.forall_mem_append.mpr ⟨writes_flag _, writes_flag _⟩
  · exact List.forall_mem_singleton.mpr (writes_number mtu)
  · split
    next => exact List.forall_mem_nil _
    next some =>
      have zeros : text (List.replicate nameSize 0) = [] := by decide
      have named := writable.kniName.resolve_left fun same => some (same ▸ zeros)
      exact List.forall_mem_singleton.mpr (writes_one named.short)

theorem written_device (inRange : device.InRange) (writable : device.Writable) :
    Written [device.entry] := by
  have rx : Writes [ascii "rx", openBrace] := by
    refine ⟨List.cons_ne_nil _ _, ?_, ?_, ?_⟩ <;> decide +kernel
  have tx : Writes [ascii "tx", openBrace] := by
    refine ⟨List.cons_ne_nil _ _, ?_, ?_, ?_⟩ <;> decide +kernel
  apply written_block (writes_named writable.name) _ written_nil
  apply written_block rx (written_rx inRange writable)
  exact written_block tx (written_tx inRange) (written_others inRange writable)

theorem short_isolId {id : Nat} (short : maxLcore ≤ 2 ^ 31)
    (valid : id = NETIF_LCORE_ID_INVALID ∨ 0 < id ∧ id < maxLcore) : Short (isolId id) := by
  apply short_printUnsigned
  split
  next => decide
  next invalid =>
    have bound : (2 : Nat) ^ 31 < 10 ^ 32 := by decide
    exact (valid.resolve_left invalid).2.trans_le (short.trans bound.le)

theorem written_port (short : maxLcore ≤ 2 ^ 31) (inRange : port.InRange maxLcore)
    (writable : port.Writable) : Written [port.entry] := by
  have bound : (NETIF_MAX_QUEUES : Nat) < 10 ^ 32 := by decide
  have ids : ∀ (handler : Handler) (queues : Fin NETIF_MAX_QUEUES → Nat),
      Writes (Setting.tokens ⟨handler, (usedIds queues).map printUnsigned⟩) := by
    intro handler queues
    apply writes_setting
    · intro word member
      obtain ⟨id, used, rfl⟩ := List.mem_map.mp member
      exact short_printUnsigned ((mem_usedIds used).trans bound)
    · rw [List.length_map]
      exact length_usedIds
  have isol : Writes (Setting.tokens
      ⟨.isolRxCpuIds, (List.ofFn port.isolRxqLcoreIds).map isolId⟩) := by
    apply writes_setting
    · intro word member
      obtain ⟨id, among, rfl⟩ := List.mem_map.mp member
      obtain ⟨ii, rfl⟩ := List.mem_ofFn.mp among
      exact short_isolId short (inRange.isolRxqLcoreIds ii)
    · rw [List.length_map]
      exact (List.length_ofFn).le
  have ring : port.isolRxqRingSz < 10 ^ 32 := writable.isolRxqRingSz.2.trans (by decide)
  apply written_block (writes_named writable.name) _ written_nil
  apply written_settings
  refine List.forall_mem_cons.mpr ⟨ids _ _, List.forall_mem_cons.mpr ⟨ids _ _, ?_⟩⟩
  exact List.forall_mem_cons.mpr ⟨isol, List.forall_mem_singleton.mpr (writes_number ring)⟩

theorem written_worker (short : maxLcore ≤ 2 ^ 31)
    (inRange : ∀ port ∈ worker.portList, port.InRange maxLcore) (writable : worker.Writable) :
    Written [worker.entry] := by
  have cpuId : worker.cpuId < 10 ^ 32 := writable.cpuId.2.trans (by decide)
  apply written_block (writes_named writable.name) _ written_nil
  apply Written.append
  · apply written_settings
    exact List.forall_mem_cons.mpr
      ⟨writes_one writable.type.short, List.forall_mem_singleton.mpr (writes_number cpuId)⟩
  · apply written_map
    intro port member
    have among := List.mem_reverse.mp member
    exact written_port short (inRange port among) (writable.ports port among)

/-- Every line of the file can be written. -/
theorem written_entries (short : maxLcore ≤ 2 ^ 31) (inRange : conf.InRange maxLcore)
    (writable : conf.Writable) : Written conf.entries := by
  have mbufs : conf.pktpoolNbMbuf < 10 ^ 32 := by
    obtain ⟨exponent, -, upper, same⟩ := inRange.pktpoolNbMbuf
    have greatest : (2 : Int) ^ exponent ≤ 2 ^ 27 := pow_le_pow_right₀ (by decide) upper
    omega
  have interval : conf.schedInterval < 10 ^ 32 := inRange.schedInterval.2.trans_lt (by decide)
  have timer : Writes [ascii "timer_defs", openBrace] := by
    refine ⟨List.cons_ne_nil _ _, ?_, ?_, ?_⟩ <;> decide +kernel
  apply written_block (writes_brace .netifDefs)
  · apply Written.append
    · apply written_settings
      exact List.forall_mem_cons.mpr ⟨writes_number mbufs,
        List.forall_mem_singleton.mpr (writes_power inRange.pktpoolMbufCache (by decide))⟩
    · apply written_map
      intro device member
      have among := List.mem_reverse.mp member
      exact written_device (inRange.devices device among) (writable.devices device among)
  · apply written_block (writes_brace .workerDefs)
    · apply written_map
      intro worker member
      have among := List.mem_reverse.mp member
      exact written_worker short (inRange.ports worker among) (writable.workers worker among)
    · apply written_block timer _ written_nil
      apply written_settings
      exact List.forall_mem_singleton.mpr (writes_number interval)

end Lines

/-! ## Reading back -/

section RoundTrip

variable {alloc : Nat → Option Stale} {maxLcore : Nat} {conf : Conf}

theorem foldlM_call (settings : List Setting) (before : Conf) :
    (settings.map Setting.call).foldlM (Call.run alloc maxLcore (configKeywords .init)) before =
      settings.foldlM (Setting.run alloc maxLcore) before := by
  rw [List.foldlM_map]
  congr 1
  funext conf setting
  exact run_call conf setting

theorem readConfFile_oneFile {stream : Bytes} {level : Level} {called : List Call}
    (read : ∀ readIncluded, (readStream readIncluded level stream).map calls = some called)
    (depth : Nat) (confFile : Bytes) :
    readConfFile (oneFile stream) (depth + 1) () level confFile = some called := by
  rw [readConfFile]
  dsimp only [oneFile, readConfFiles]
  rw [read]
  simp

/-- The master. -/
def masterWorker : WorkerConf where
  cpuId := 0
  name := strncpy nameSize (ascii "cpu0")
  type := strncpy nameSize (ascii "master")
  portList := []

/-- The default pool, and the master. -/
def masterConf : Conf where
  workerList := [masterWorker]
  schedInterval := 10

/-- A file for it. -/
def masterLines : List Bytes :=
  [ascii "! the memory pool",
    ascii "netif_defs \x7b",
    ascii "    <init> pktpool_size   65535  ! a power of two, less one",
    ascii "    <init> pktpool_cache  256",
    ascii "\x7d",
    ascii "",
    ascii "worker_defs \x7b",
    ascii "    <init> worker cpu0 \x7b",
    ascii "        type    master",
    ascii "        cpu_id  0",
    ascii "    \x7d",
    ascii "\x7d",
    ascii "timer_defs \x7b",
    ascii "    schedule_interval 10  # milliseconds",
    ascii "\x7d"]

example : lineTokens (ascii "    <init> worker cpu0 \x7b") =
    some [ascii "worker", ascii "cpu0", openBrace] := by decide +kernel

theorem masterLines_layout : Layout masterConf.entries masterLines := by
  have closes : lineTokens (ascii "\x7d") = some [CFG_FILE_EOB] := by decide +kernel
  have closesWorker : lineTokens (ascii "    \x7d") = some [CFG_FILE_EOB] := by decide +kernel
  have opensNetif : lineTokens (ascii "netif_defs \x7b") =
      some (Handler.netifDefs.opening []).tokens := by
    decide +kernel
  have opensWorkers : lineTokens (ascii "worker_defs \x7b") =
      some (Handler.workerDefs.opening []).tokens := by
    decide +kernel
  have opensWorker : lineTokens (ascii "    <init> worker cpu0 \x7b") =
      some masterWorker.opening.tokens := by
    decide +kernel
  have opensTimer : lineTokens (ascii "timer_defs \x7b") = some [ascii "timer_defs", openBrace] := by
    decide +kernel
  have pool : Layout (masterConf.poolSettings.map Setting.line)
      [ascii "    <init> pktpool_size   65535  ! a power of two, less one",
        ascii "    <init> pktpool_cache  256"] :=
    .line (by decide +kernel) (.line (by decide +kernel) .nil)
  have worker : Layout (masterWorker.workerSettings.map Setting.line)
      [ascii "        type    master", ascii "        cpu_id  0"] :=
    .line (by decide +kernel) (.line (by decide +kernel) .nil)
  have timer : Layout (masterConf.timerSettings.map Setting.line)
      [ascii "    schedule_interval 10  # milliseconds"] :=
    .line (by decide +kernel) .nil
  have workers : Layout [masterWorker.entry] _ := .block opensWorker worker closesWorker .nil
  have later : Layout (masterConf.entries.drop 1) _ :=
    .block opensWorkers workers closes (.block opensTimer timer closes .nil)
  have blank : lineTokens (ascii "") = none := by decide +kernel
  have comment : lineTokens (ascii "! the memory pool") = none := by decide +kernel
  exact .blank comment (.block opensNetif pool closes (.blank blank later))

theorem named_cpu0 : Named (strncpy nameSize (ascii "cpu0")) :=
  ⟨by decide +kernel, by decide +kernel⟩

theorem named_master : Named (strncpy nameSize (ascii "master")) :=
  ⟨by decide +kernel, by decide +kernel⟩

theorem masterLines_areLines : ∀ line ∈ masterLines, IsConfLine line := by
  have ends : masterLines.all (fun line => line.all fun c => !endsLine c) = true := by
    decide +kernel
  have readable : ∀ line ∈ masterLines, Readable line := by decide +kernel
  have plain : ∀ line ∈ masterLines, includesFile line = false := by decide +kernel
  intro line member
  refine ⟨?_, readable line member, plain line member⟩
  intro c inside
  have whole := List.all_eq_true.mp (List.all_eq_true.mp ends line member) c inside
  rwa [Bool.not_eq_true'] at whole

theorem masterConf_inRange : masterConf.InRange 128 where
  pktpoolNbMbuf := pool_default
  pktpoolMbufCache := cache_default
  schedInterval := interval_default
  devices := List.forall_mem_nil _
  ports := List.forall_mem_singleton.mpr (List.forall_mem_nil _)

theorem masterWorker_writable : masterWorker.Writable where
  name := named_cpu0
  type := named_master
  isType := by decide +kernel
  cpuId := by decide
  ports := List.forall_mem_nil _

theorem masterConf_writable : masterConf.Writable :=
  ⟨List.forall_mem_nil _, List.forall_mem_singleton.mpr masterWorker_writable⟩

end RoundTrip

end NetDefender.Config
