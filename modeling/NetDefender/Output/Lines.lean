import Mathlib.Algebra.Order.BigOperators.Group.List
import NetDefender.Output.Events

/-!
# What the lines are

A nested member is written as a string member and an object behind it, which no object
allows.  The event of a flow, which nests nothing, is one.
-/

namespace NetDefender.Output

open CString Json Flows

/-! ## Short fields -/

/-- A call that adds a short field. -/
def Call.Short : Call → Prop
  | .addString key value =>
      PlainKey key ∧ (ascii key).length ≤ 20 ∧ (value.getD []).length ≤ 130
  | .addUint key _ => PlainKey key ∧ (ascii key).length ≤ 20
  | _ => False

section Run

variable {realloc : Nat → Bool} {jb : JsonBuilder} {fields : List Bytes}

theorem JsonBuilder.Holds.call (holds : jb.Holds fields) {call : Call} (short : call.Short)
    (few : fields.length < 20) : ∃ field, (call.run realloc jb).Holds (fields ++ [field]) := by
  cases call with
  | addString key value =>
      obtain ⟨plain, shortKey, short⟩ := short
      exact ⟨_, holds.addString plain shortKey short few⟩
  | addUint key value =>
      obtain ⟨plain, shortKey⟩ := short
      exact ⟨_, holds.addUint plain shortKey value few⟩
  | startObject => exact short.elim
  | endObject => exact short.elim
  | startArray => exact short.elim
  | endArray => exact short.elim

/-- Short fields are all added. -/
theorem JsonBuilder.Holds.run (holds : jb.Holds fields) {calls : List Call}
    (short : ∀ call ∈ calls, call.Short) (few : fields.length + calls.length ≤ 20) :
    ∃ more, more.length = calls.length ∧ (jb.run realloc calls).Holds (fields ++ more) := by
  induction calls generalizing jb fields with
  | nil => exact ⟨[], rfl, (List.append_nil fields).symm ▸ holds⟩
  | cons call calls ih =>
      obtain ⟨first, rest⟩ := List.forall_mem_cons.mp short
      rw [List.length_cons] at few
      obtain ⟨field, holds'⟩ := holds.call first (by omega)
      obtain ⟨more, same, holds''⟩ := ih holds' rest (by simp; omega)
      refine ⟨field :: more, congrArg Nat.succ same, ?_⟩
      rw [List.append_assoc] at holds''
      exact holds''

end Run

theorem length_printUnsigned_byte (byte : UInt8) : (printUnsigned byte.toNat).length ≤ 3 :=
  length_printUnsigned (by decide) (byte.toNat_lt.trans (by decide))

theorem length_inetNtop4 (addr : Bytes) : (inetNtop4 addr).length ≤ 15 := by
  have dot : (ascii ".").length = 1 := by decide +kernel
  have byte (index : Nat) := length_printUnsigned_byte (addr.getD index 0)
  have first := byte 0
  have second := byte 1
  have third := byte 2
  have fourth := byte 3
  simp only [inetNtop4, List.length_append, dot]
  omega

theorem length_printHex {value : Nat} (small : value < 16 ^ 4) : (printHex value).length ≤ 4 := by
  rw [printHex, List.length_map]
  exact (Nat.length_toDigits_le_iff (by decide) (by decide)).mpr small

/-- A group has 16 bits. -/
theorem groups_lt (addr : Bytes) (index : Nat) : (groups addr).getD index 0 < 16 ^ 4 := by
  rw [List.getD_eq_getElem?_getD]
  cases found : (groups addr)[index]? with
  | none => decide
  | some group =>
      obtain ⟨at', -, rfl⟩ := List.mem_map.mp (List.mem_of_getElem? found)
      have high := (addr.getD (2 * at') 0).toNat_lt
      have low := (addr.getD (2 * at' + 1) 0).toNat_lt
      rw [Option.getD_some]
      omega

theorem length_ntop6Piece (addr : Bytes) (best : Option (Nat × Nat)) (index : Nat) :
    (ntop6Piece addr best index).length ≤ 16 := by
  have sep : (ascii ":").length = 1 := by decide +kernel
  have ipv4 := length_inetNtop4 (addr.drop 12)
  have hex := length_printHex (groups_lt addr index)
  rw [ntop6Piece]
  dsimp only
  split
  next =>
    split
    next => exact sep.le.trans (by decide)
    next => exact Nat.zero_le _
  next =>
    split
    next => exact Nat.zero_le _
    next =>
      rw [List.length_append]
      apply (Nat.add_le_add _ _).trans (by decide : 1 + 15 ≤ 16)
      · split
        next => exact Nat.zero_le _
        next => exact sep.le
      · split
        next => exact ipv4
        next => exact hex.trans (by decide)

theorem length_inetNtop6 (addr : Bytes) : (inetNtop6 addr).length ≤ 130 := by
  have sep : (ascii ":").length = 1 := by decide +kernel
  rw [inetNtop6, List.length_append]
  apply (Nat.add_le_add _ _).trans (by decide : 8 * 16 + 1 ≤ 130)
  · rw [List.length_flatMap]
    apply List.sum_le_card_nsmul
    exact List.forall_mem_map.mpr fun index _ => length_ntop6Piece addr _ index
  · split
    next => exact sep.le
    next => exact Nat.zero_le _

theorem length_timestampText (timestamp : Timeval) : (timestampText timestamp).length ≤ 63 :=
  List.length_take_le _ _

theorem short_addString {key : String} (plain : PlainKey key ∧ (ascii key).length ≤ 20)
    {value : Bytes} (short : value.length ≤ 130) : (Call.addString key (some value)).Short :=
  ⟨plain.1, plain.2, short⟩

theorem short_jsonAddTimestamp (timestamp : Timeval) :
    ∀ call ∈ jsonAddTimestamp timestamp, call.Short := by
  have short := (length_timestampText timestamp).trans (by decide : 63 ≤ 130)
  rw [jsonAddTimestamp, List.forall_mem_singleton]
  exact short_addString (by decide +kernel) short

theorem short_jsonAddFlowInfo (flow : Flow) : ∀ call ∈ jsonAddFlowInfo flow, call.Short := by
  have ip (address : FlowAddress) :
      (if flow.flags &&& FLOW_IPV4 ≠ 0 then inetNtop4 (addressBytes address)
        else inetNtop6 (addressBytes address)).length ≤ 130 := by
    split
    next => exact (length_inetNtop4 _).trans (by decide)
    next => exact length_inetNtop6 _
  have proto : (ascii (if flow.proto = IPPROTO_TCP then "TCP"
      else if flow.proto = Packets.IPPROTO_UDP then "UDP" else "OTHER")).length ≤ 130 := by
    split
    next => decide +kernel
    next => split <;> decide +kernel
  have port {key : String} (plain : PlainKey key ∧ (ascii key).length ≤ 20) (value : BitVec 64) :
      (Call.addUint key value).Short := plain
  rw [jsonAddFlowInfo]
  refine List.forall_mem_cons.mpr ⟨short_addString (by decide +kernel) (ip flow.srcAddr), ?_⟩
  refine List.forall_mem_cons.mpr ⟨port (by decide +kernel) _, ?_⟩
  refine List.forall_mem_cons.mpr ⟨short_addString (by decide +kernel) (ip flow.dstAddr), ?_⟩
  refine List.forall_mem_cons.mpr ⟨port (by decide +kernel) _, ?_⟩
  exact List.forall_mem_singleton.mpr (short_addString (by decide +kernel) proto)

theorem short_leadingFields (ctx : JsonOutputCtx) (timestamp : Timeval) {eventType : String}
    (short : (ascii eventType).length ≤ 130) (flow : Option Flow) :
    ∀ call ∈ leadingFields ctx timestamp eventType flow, call.Short := by
  rw [leadingFields, List.append_assoc, List.forall_mem_append]
  constructor
  case left =>
    split
    next => exact short_jsonAddTimestamp timestamp
    next => exact List.forall_mem_nil _
  case right =>
    refine List.forall_mem_cons.mpr ⟨short_addString (by decide +kernel) short, ?_⟩
    cases flow with
    | none => exact List.forall_mem_nil _
    | some flow =>
        change ∀ call ∈ if ctx.logFlowInfo then jsonAddFlowInfo flow else [], call.Short
        split
        next => exact short_jsonAddFlowInfo flow
        next => exact List.forall_mem_nil _

theorem length_leadingFields (ctx : JsonOutputCtx) (timestamp : Timeval) (eventType : String)
    (flow : Option Flow) : (leadingFields ctx timestamp eventType flow).length ≤ 7 := by
  rw [leadingFields, List.length_append, List.length_append]
  apply (Nat.add_le_add (Nat.add_le_add _ le_rfl) _).trans (by decide : 1 + 1 + 5 ≤ 7)
  · split <;> exact Nat.le_of_ble_eq_true rfl
  · cases flow with
    | none => exact Nat.zero_le _
    | some flow =>
        rw [Option.elim_some]
        split <;> exact Nat.le_of_ble_eq_true rfl

/-! ## Nested members -/

/-- An event with a nested member is no object: a brace follows the comma behind the string. -/
theorem eventCalls_not_object (realloc : Nat → Bool) (ctx : JsonOutputCtx)
    (timestamp : Timeval) {eventType : String} (plain : PlainKey eventType)
    (short : (ascii eventType).length ≤ 20) (flow : Option Flow) (nested : List Call) :
    ¬IsObject
      (JsonBuilder.run realloc {} (eventCalls ctx timestamp eventType flow nested)).buf := by
  have shortFields := short_leadingFields ctx timestamp (short.trans (by decide)) flow
  have few := length_leadingFields ctx timestamp eventType flow
  obtain ⟨fields, same, holds⟩ := (@JsonBuilder.holds_new realloc).run shortFields
    (by rw [List.length_nil]; omega)
  rw [List.nil_append] at holds
  have named := @JsonBuilder.Holds.addString realloc _ _ holds eventType plain short none
    (Nat.zero_le _) (by omega)
  have brace := @JsonBuilder.Holds.brace realloc _ _ named (by simp; omega)
  obtain ⟨rest, ran⟩ := @JsonBuilder.run_extends realloc
    (Call.run realloc (Call.run realloc (JsonBuilder.run realloc
      (Call.run realloc {} .startObject) (leadingFields ctx timestamp eventType flow))
      (.addString eventType none)) .startObject) (nested ++ [.endObject, .endObject])
  have buf : (JsonBuilder.run realloc {} (eventCalls ctx timestamp eventType flow nested)).buf =
      openBrace :: (listed (fields ++ [stringMember eventType none]) ++ openBrace :: rest) := by
    rw [eventCalls, JsonBuilder.run, List.foldl_cons, List.foldl_append, List.foldl_cons,
      List.foldl_cons]
    apply ran.symm.trans
    rw [brace]
    simp
  rw [buf]
  exact not_isObject_of_brace named.areFields

/-- The calls for an event are those of an event with a nested member. -/
theorem Event.calls_nested {ctx : JsonOutputCtx} {now : Timeval} {flow : Option Flow}
    {event : Event} {calls : List Call} (emits : event.calls ctx now flow = .ok calls) :
    ∃ timestamp eventType flow' nested, PlainKey eventType ∧ (ascii eventType).length ≤ 20 ∧
      calls = eventCalls ctx timestamp eventType flow' nested := by
  cases event with
  | alert raised timestamp =>
      cases emits
      exact ⟨timestamp, "alert", flow, _, by decide +kernel, by decide +kernel, rfl⟩
  | http tx =>
      cases emits
      exact ⟨now, "http", flow, _, by decide +kernel, by decide +kernel, rfl⟩
  | dns tx =>
      obtain ⟨response, -, rfl⟩ := Fallible.map_ok emits
      exact ⟨now, "dns", flow, _, by decide +kernel, by decide +kernel, rfl⟩
  | tls conn =>
      cases emits
      exact ⟨now, "tls", flow, _, by decide +kernel, by decide +kernel, rfl⟩
  | stats =>
      cases emits
      exact ⟨now, "stats", none, _, by decide +kernel, by decide +kernel, rfl⟩

/-- A line is written if there is memory for a builder and the file can be written. -/
theorem Event.line_written {host : Host} (allocates : host.allocates = true)
    (writes : host.writes = true) (ctx : JsonOutputCtx) (flow : Option Flow) {event : Event}
    {calls : List Call} (emits : event.calls ctx host.now flow = .ok calls) :
    ∃ line, event.line host ctx flow = .ok (some line) := by
  refine ⟨(JsonBuilder.run host.realloc {} calls).buf, ?_⟩
  rw [Event.line, emits, Except.map, Host.line, allocates, writes]
  rfl

/-- No line for an alert, a transaction, a TLS connection or the statistics is a JSON object,
whatever the fields are and whatever memory there is. -/
theorem event_line_not_object (host : Host) (ctx : JsonOutputCtx) (flow : Option Flow)
    (event : Event) {line : Bytes} (written : event.line host ctx flow = .ok (some line)) :
    ¬IsObject line := by
  obtain ⟨calls, emits, written⟩ := Fallible.map_ok written
  obtain ⟨timestamp, eventType, flow', nested, plain, short, rfl⟩ := Event.calls_nested emits
  rw [Host.line] at written
  split at written
  next =>
    obtain rfl := Option.some.inj written
    exact eventCalls_not_object host.realloc ctx timestamp plain short flow' nested
  next => cases written

/-- The statistics of a new output, at the epoch. -/
theorem stats_line_not_object :
    ∃ line, Event.stats.line { now := ⟨0, 0⟩ } {} none = .ok (some line) ∧ ¬IsObject line := by
  obtain ⟨line, written⟩ := @Event.line_written { now := ⟨0, 0⟩ } rfl rfl {} none .stats _ rfl
  exact ⟨line, written, event_line_not_object _ _ _ _ written⟩

/-- The line of an alert. -/
def portScanLine : Bytes :=
  ascii ("\x7b\"event_type\":\"alert\",\"alert\":\"\",\x7b\"action\":\"allowed\",\"gid\":1," ++
    "\"signature_id\":9000,\"rev\":1,\"signature\":\"Port scan\",\"category\":\"SCAN\"," ++
    "\"severity\":\"LOW\"\x7d\x7d")

/-- After the string member of the alert and a comma a brace opens. -/
theorem alert_line_not_object :
    let alert : Rules.Alert :=
      { alertId := 1, ruleId := 9000, severity := .low, category := .scan, protocol := .unknown
        message := ascii "Port scan", detail := [], srcIp := 0, dstIp := 0, srcPort := 0
        dstPort := 0, timestamp := 0 }
    (Event.alert alert ⟨0, 0⟩).line { now := ⟨0, 0⟩ } { logTimestamp := false } none =
        .ok (some portScanLine) ∧
      ¬IsObject portScanLine := by
  refine ⟨by decide +kernel, ?_⟩
  let members := [stringMember "event_type" (ascii "alert"), stringMember "alert" none]
  have begins : portScanLine = openBrace :: (listed members ++ portScanLine.drop 33) := by
    decide +kernel
  have brace : portScanLine.drop 33 = openBrace :: portScanLine.drop 34 := by decide +kernel
  rw [begins, brace]
  apply not_isObject_of_brace
  refine List.forall_mem_cons.mpr ⟨isField_stringMember (by decide +kernel) _, ?_⟩
  exact List.forall_mem_singleton.mpr (isField_stringMember (by decide +kernel) _)

/-! ## Events of flows -/

theorem length_appProtoToString (alproto : Proto.AppProto) :
    (ascii (appProtoToString alproto)).length ≤ 130 := by
  cases alproto <;> decide +kernel

/-- The fields of the event of a flow. -/
def flowFields (ctx : JsonOutputCtx) (now : Timeval) (flow : Flow) (alproto : Proto.AppProto) :
    List Call :=
  (if ctx.logTimestamp then jsonAddTimestamp now else []) ++
    [.addString "event_type" (ascii "flow")] ++ jsonAddFlowInfo flow ++
    [.addString "app_proto" (ascii (appProtoToString alproto))] ++
    flow.tcp.elim [] fun tcp =>
      [.addUint "pkts_toserver" (BitVec.ofNat 64 tcp.segCnt),
        .addUint "bytes_toserver" (BitVec.ofNat 64 tcp.byteCnt)]

theorem short_flowFields (ctx : JsonOutputCtx) (now : Timeval) (flow : Flow)
    (alproto : Proto.AppProto) : ∀ call ∈ flowFields ctx now flow alproto, call.Short := by
  simp only [flowFields, List.forall_mem_append, List.forall_mem_singleton]
  refine ⟨⟨⟨⟨?_, short_addString (by decide +kernel) (by decide +kernel)⟩,
    short_jsonAddFlowInfo flow⟩,
    short_addString (by decide +kernel) (length_appProtoToString alproto)⟩, ?_⟩
  · split
    next => exact short_jsonAddTimestamp now
    next => exact List.forall_mem_nil _
  · cases flow.tcp with
    | none => exact List.forall_mem_nil _
    | some tcp =>
        have port {key : String} (plain : PlainKey key ∧ (ascii key).length ≤ 20)
            (value : BitVec 64) : (Call.addUint key value).Short := plain
        refine List.forall_mem_cons.mpr ⟨port (by decide +kernel) _, ?_⟩
        exact List.forall_mem_singleton.mpr (port (by decide +kernel) _)

theorem length_flowFields (ctx : JsonOutputCtx) (now : Timeval) (flow : Flow)
    (alproto : Proto.AppProto) :
    0 < (flowFields ctx now flow alproto).length ∧
      (flowFields ctx now flow alproto).length ≤ 10 := by
  have info : (jsonAddFlowInfo flow).length = 5 := rfl
  have timestamp : (jsonAddTimestamp now).length = 1 := rfl
  simp only [flowFields, List.length_append, List.length_singleton, info]
  cases ctx.logTimestamp <;> cases flow.tcp <;> simp [timestamp]

/-- The line of a flow is an object. -/
theorem flow_line_object (realloc : Nat → Bool) (ctx : JsonOutputCtx) (now : Timeval)
    (flow : Flow) (alproto : Proto.AppProto) :
    IsObject (JsonBuilder.run realloc {} (jsonOutputFlow ctx now flow alproto)).buf := by
  obtain ⟨some, few⟩ := length_flowFields ctx now flow alproto
  obtain ⟨fields, same, holds⟩ := (@JsonBuilder.holds_new realloc).run
    (short_flowFields ctx now flow alproto) (by rw [List.length_nil]; omega)
  have calls : jsonOutputFlow ctx now flow alproto =
      .startObject :: (flowFields ctx now flow alproto ++ [.endObject]) := rfl
  rw [calls, JsonBuilder.run, List.foldl_cons, List.foldl_append]
  rw [List.nil_append] at holds
  rcases List.eq_nil_or_concat fields with rfl | ⟨others, last, rfl⟩
  · rw [← same] at some
    exact absurd some (Nat.lt_irrefl 0)
  · rw [List.concat_eq_append] at holds same
    rw [List.length_append, List.length_singleton] at same
    exact holds.finish (by omega)

end NetDefender.Output
