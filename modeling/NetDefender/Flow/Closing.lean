import NetDefender.Flow.Handshake

/-!
# The end of a session

Two laws about how a session ends.  A reset should close it for good, whatever
other flags the packet has; each state of `flow_update` tests RST last, so that
another flag can hide it.  And as long as a direction has seen no FIN, its payload
should reach the stream buffer of that direction; `flow_update` decides this from
the joint state after the packet, which leaves `TCP_ESTABLISHED` with the first
FIN of either side.  For both the exact condition on the packets is given.
-/

namespace NetDefender.Flows

open NetDefender.Stream

/-! ## Resets -/

/-- Once a reset was seen, the session is closed and stays silent. -/
structure ResetLaw (stream : StreamConfig) (past : List Update) (flow : Flow)
    (update : Update) (after : Flow) : Prop where
  closed : (∃ seen ∈ past ++ [update], seen.Carries RTE_TCP_RST_FLAG) →
    after.state = .closed
  silent : (∃ seen ∈ past, seen.Carries RTE_TCP_RST_FLAG) →
    update.insertion stream flow = none

/-- The flags that do not hide a reset in a state. -/
def ResetVisible (state : TcpState) (flags : BitVec 8) : Prop :=
  match state with
  | .none | .synSent => ¬hasFlag flags RTE_TCP_SYN_FLAG
  | .synRecv | .closing => ¬hasFlag flags RTE_TCP_ACK_FLAG
  | .established | .finWait2 | .closeWait => ¬hasFlag flags RTE_TCP_FIN_FLAG
  | .finWait1 =>
      ¬hasFlag flags RTE_TCP_FIN_FLAG ∧ ¬hasFlag flags RTE_TCP_ACK_FLAG
  | .timeWait | .lastAck | .closed => True
  | .listen => False

instance (state : TcpState) (flags : BitVec 8) :
    Decidable (ResetVisible state flags) :=
  match state with
  | .none | .synSent | .synRecv | .closing | .established | .finWait2 | .closeWait =>
      inferInstanceAs (Decidable (¬_))
  | .finWait1 => inferInstanceAs (Decidable (_ ∧ _))
  | .timeWait | .lastAck | .closed => inferInstanceAs (Decidable True)
  | .listen => inferInstanceAs (Decidable False)

/-- The packet carries no reset, or one that the state before it does not hide. -/
def ResetsVisibly (_ : List Update) (flow : Flow) (update : Update) (_ : Flow) :
    Prop :=
  ∀ hdr ∈ update.pkt.tcpHdr, hasFlag hdr.tcpFlags RTE_TCP_RST_FLAG →
    ResetVisible flow.state hdr.tcpFlags

instance (past : List Update) (flow : Flow) (update : Update) (after : Flow) :
    Decidable (ResetsVisibly past flow update after) :=
  inferInstanceAs (Decidable (∀ hdr ∈ update.pkt.tcpHdr,
    hasFlag hdr.tcpFlags RTE_TCP_RST_FLAG → ResetVisible flow.state hdr.tcpFlags))

/-- A reset closes the session exactly when it is not hidden. -/
theorem nextState_closed_iff {state : TcpState} {flags : BitVec 8}
    {direction : Direction} (reset : hasFlag flags RTE_TCP_RST_FLAG) :
    nextState state flags direction = .closed ↔ ResetVisible state flags := by
  revert reset
  simp only [nextState, ResetVisible]
  generalize hasFlag flags RTE_TCP_SYN_FLAG = syn
  generalize hasFlag flags RTE_TCP_ACK_FLAG = ack
  generalize hasFlag flags RTE_TCP_FIN_FLAG = fin
  generalize hasFlag flags RTE_TCP_RST_FLAG = rst
  cases state <;> cases direction <;> revert syn ack fin rst <;> decide

section Closed

variable {stream : StreamConfig} {flow after : Flow} {update : Update}

/-- A closed session stays closed and takes no payload. -/
theorem FlowStep.of_closed (step : FlowStep stream flow update after)
    (closed : flow.state = .closed) :
    after.state = .closed ∧ update.insertion stream flow = none := by
  cases step with
  | untouched header same =>
      refine ⟨by rw [Flow.state, same, ← closed, Flow.state], ?_⟩
      rw [Update.insertion, header]
      split
      next => cases flow.tcp <;> rfl
      next => rfl
  | session tcp session hdr sessionEq header afterEq step =>
      rw [Flow.state_eq sessionEq] at closed
      have stays : nextState tcp.state hdr.tcpFlags update.direction = .closed := by
        rw [closed]
        rfl
      refine ⟨by rw [Flow.state_eq afterEq, step.state, stays], ?_⟩
      simp only [Update.insertion, sessionEq, header, TcpSession.insertion, stays]
      split
      next =>
        cases tcp.prepared stream update.alloc hdr update.direction
          update.direction with
        | none => rfl
        | some buffer => simp [payloadCall]
      next => rfl

/-- The state after a packet with a TCP header. -/
theorem FlowStep.state {hdr : TcpHdr} (step : FlowStep stream flow update after)
    (header : update.pkt.tcpHdr = some hdr) :
    after.state = nextState flow.state hdr.tcpFlags update.direction := by
  cases step with
  | untouched bare same =>
      rw [header] at bare
      cases bare
  | session tcp session other sessionEq otherHeader afterEq step =>
      rw [header] at otherHeader
      cases otherHeader
      rw [Flow.state_eq afterEq, step.state, Flow.state_eq sessionEq]

end Closed

/-- The reset law holds in a run from a new flow exactly when no packet of the run
hides a reset from the state before it. -/
theorem resets_close_iff (config : FlowConfig) (stream : StreamConfig)
    (stats : ReassemblyStats) (alloc : FlowAllocation) (now : BitVec 64) (id : Nat)
    (hash : BitVec 32) (pkt : Packet) (tcp : pkt.ipProto = IPPROTO_TCP)
    (granted : alloc.session = true) (updates : List Update) :
    (∃ final, runUpdates config stream
        (newFlow config alloc now id hash pkt, stats) updates = .ok final) ∧
      (AlongRun config stream (ResetLaw stream) []
          (newFlow config alloc now id hash pkt, stats) updates ↔
        AlongRun config stream ResetsVisibly []
          (newFlow config alloc now id hash pkt, stats) updates) := by
  have hasSession := newFlow_hasSession config alloc now id hash pkt tcp granted
  obtain ⟨final, run, _⟩ := hasSession.runUpdates config stream updates
  refine ⟨⟨final, run⟩, ?_, ?_⟩
  · apply hasSession.alongRun (fun _ _ => True) _ updates trivial
    intro past flow update after _ _ lawful step
    refine ⟨?_, trivial⟩
    intro hdr header reset
    have closed := lawful.closed ⟨update, by simp, hdr, header, reset⟩
    rw [step.state header] at closed
    exact (nextState_closed_iff reset).mp closed
  · apply hasSession.alongRun (fun past flow =>
      (∃ seen ∈ past, seen.Carries RTE_TCP_RST_FLAG) → flow.state = .closed) _ updates
    · rintro ⟨seen, member, _⟩
      cases member
    · intro past flow update after _ closed visible step
      have closes : (∃ seen ∈ past ++ [update], seen.Carries RTE_TCP_RST_FLAG) →
          after.state = .closed := by
        rintro ⟨seen, member, reset⟩
        rcases List.mem_append.mp member with earlier | latest
        · exact (step.of_closed (closed ⟨seen, earlier, reset⟩)).1
        · rw [List.mem_singleton] at latest
          rw [latest] at reset
          obtain ⟨hdr, header, carried⟩ := reset
          rw [step.state header]
          exact (nextState_closed_iff carried).mpr (visible hdr header carried)
      exact ⟨⟨closes, fun earlier => (step.of_closed (closed earlier)).2⟩, closes⟩

/-- A reset without other flags in an established session. -/
theorem resets_close_iff_plain :
    let config : FlowConfig := ⟨16, 16, 30, 3600⟩
    let first := tcpUpdate RTE_TCP_SYN_FLAG 100 .toserver
    let updates := [first,
      tcpUpdate (RTE_TCP_SYN_FLAG ||| RTE_TCP_ACK_FLAG) 500 .toclient,
      tcpUpdate RTE_TCP_ACK_FLAG 101 .toserver,
      tcpUpdate (RTE_TCP_RST_FLAG ||| RTE_TCP_ACK_FLAG) 501 .toclient]
    AlongRun config .default (ResetLaw .default) []
      (newFlow config {} 0 7 0 first.pkt, {}) updates := by
  intro config first updates
  apply (resets_close_iff config .default {} {} 0 7 0 first.pkt rfl rfl updates).2.mpr
  apply AlongRun.cons rfl (by decide)
  apply AlongRun.cons rfl (by decide)
  apply AlongRun.cons rfl (by decide)
  apply AlongRun.cons rfl (by decide)
  trivial

/-- A reset with ACK while the final ACK of the handshake is missing: it
establishes the session. -/
theorem reset_establishes_session :
    let config : FlowConfig := ⟨16, 16, 30, 3600⟩
    let first := tcpUpdate RTE_TCP_SYN_FLAG 100 .toserver
    let updates := [first,
      tcpUpdate (RTE_TCP_SYN_FLAG ||| RTE_TCP_ACK_FLAG) 500 .toclient,
      tcpUpdate (RTE_TCP_RST_FLAG ||| RTE_TCP_ACK_FLAG) 101 .toserver]
    (∃ final, runUpdates config .default
        (newFlow config {} 0 7 0 first.pkt, {}) updates = .ok final ∧
      final.1.state = .established) ∧
      ¬AlongRun config .default (ResetLaw .default) []
        (newFlow config {} 0 7 0 first.pkt, {}) updates := by
  intro config first updates
  refine ⟨⟨_, rfl, by decide⟩, ?_⟩
  intro along
  obtain ⟨_, second⟩ := along _ rfl
  obtain ⟨_, third⟩ := second _ rfl
  obtain ⟨lawful, _⟩ := third _ rfl
  exact absurd (lawful.closed (by decide)) (by decide)

/-! ## Payload at the end of a connection -/

/-- The payload is passed to `stream_buffer_insert_segment` of the buffer of its
direction. -/
def Passed (stream : StreamConfig) (flow : Flow) (update : Update) : Prop :=
  ∃ call, update.insertion stream flow = some call ∧
    flow.buffer update.direction = some call.sb ∧
    call.payload = update.pkt.payload ∧ call.payloadLen = update.pkt.payloadLen

/-- A TCP packet with payload in a direction in which no earlier packet carried
FIN. -/
structure StillSending (earlier : List Update) (update : Update) : Prop where
  header : update.pkt.tcpHdr ≠ none
  payload : 0 < update.pkt.payloadLen
  unfinished : ∀ seen ∈ earlier, seen.direction = update.direction →
    ¬seen.Carries RTE_TCP_FIN_FLAG

instance (earlier : List Update) (update : Update) :
    Decidable (StillSending earlier update) :=
  decidable_of_iff (update.pkt.tcpHdr ≠ none ∧ 0 < update.pkt.payloadLen ∧
      ∀ seen ∈ earlier, seen.direction = update.direction →
        ¬seen.Carries RTE_TCP_FIN_FLAG)
    ⟨fun ⟨header, payload, unfinished⟩ => ⟨header, payload, unfinished⟩,
      fun ⟨header, payload, unfinished⟩ => ⟨header, payload, unfinished⟩⟩

/-- No payload is skipped; `before` are the packets up to the end of the
handshake, `past` those since. -/
def NoSkipLaw (stream : StreamConfig) (before past : List Update) (flow : Flow)
    (update : Update) (_ : Flow) : Prop :=
  StillSending (before ++ past) update → Passed stream flow update

/-- The condition: neither the packet nor an earlier one since the handshake, of
either direction, carries FIN, and the buffer has its memory. -/
def SentInTime (before past : List Update) (flow : Flow) (update : Update)
    (_ : Flow) : Prop :=
  StillSending (before ++ past) update → ¬update.Carries RTE_TCP_FIN_FLAG ∧
    (∀ seen ∈ past, ¬seen.Carries RTE_TCP_FIN_FLAG) ∧
    HasMemory (flow.buffer update.direction)

instance (before past : List Update) (flow : Flow) (update : Update) (after : Flow) :
    Decidable (SentInTime before past flow update after) :=
  inferInstanceAs (Decidable (StillSending (before ++ past) update →
    ¬update.Carries RTE_TCP_FIN_FLAG ∧
      (∀ seen ∈ past, ¬seen.Carries RTE_TCP_FIN_FLAG) ∧
      HasMemory (flow.buffer update.direction)))

/-- The states that a session has after its handshake. -/
def TcpState.Shaken : TcpState → Prop
  | .none | .synSent | .synRecv | .listen => False
  | .established | .finWait1 | .finWait2 | .timeWait | .closeWait | .lastAck
  | .closing | .closed => True

instance (state : TcpState) : Decidable state.Shaken :=
  match state with
  | .none | .synSent | .synRecv | .listen => .isFalse id
  | .established | .finWait1 | .finWait2 | .timeWait | .closeWait | .lastAck
  | .closing | .closed => .isTrue trivial

section Shaken

variable {state : TcpState} {flags : BitVec 8} {direction : Direction}

theorem nextState_shaken (shaken : state.Shaken) :
    (nextState state flags direction).Shaken := by
  revert shaken
  simp only [nextState]
  generalize hasFlag flags RTE_TCP_SYN_FLAG = syn
  generalize hasFlag flags RTE_TCP_ACK_FLAG = ack
  generalize hasFlag flags RTE_TCP_FIN_FLAG = fin
  generalize hasFlag flags RTE_TCP_RST_FLAG = rst
  cases state <;> cases direction <;> revert syn ack fin rst <;> decide

/-- A session stays established through packets without FIN and RST. -/
theorem nextState_established_iff (shaken : state.Shaken)
    (noReset : ¬hasFlag flags RTE_TCP_RST_FLAG) :
    nextState state flags direction = .established ↔
      state = .established ∧ ¬hasFlag flags RTE_TCP_FIN_FLAG := by
  revert shaken noReset
  simp only [nextState]
  generalize hasFlag flags RTE_TCP_SYN_FLAG = syn
  generalize hasFlag flags RTE_TCP_ACK_FLAG = ack
  generalize hasFlag flags RTE_TCP_FIN_FLAG = fin
  generalize hasFlag flags RTE_TCP_RST_FLAG = rst
  cases state <;> cases direction <;> revert syn ack fin rst <;> decide

end Shaken

section Passing

variable {stream : StreamConfig} {flow after : Flow} {update : Update}
variable {hdr : TcpHdr}

/-- After the handshake no buffer is set up any more. -/
theorem TcpSession.prepared_of_shaken (config : StreamConfig)
    (alloc : UpdateAllocation) {tcp : TcpSession} (shaken : tcp.state.Shaken)
    (hdr : TcpHdr) (direction side : Direction) :
    tcp.prepared config alloc hdr direction side = tcp.buffer side := by
  have next : (nextState tcp.state hdr.tcpFlags direction).Shaken :=
    nextState_shaken shaken
  rw [TcpSession.prepared, initStreamBuffer_other]
  intro setUp
  rw [setUp] at next
  cases side <;> exact next

/-- After the handshake a payload is passed on exactly when the session is still
established after the packet and the buffer has its memory. -/
theorem passed_iff (hasSession : HasSession flow) (shaken : flow.state.Shaken)
    (header : update.pkt.tcpHdr = some hdr) (payload : 0 < update.pkt.payloadLen) :
    Passed stream flow update ↔
      nextState flow.state hdr.tcpFlags update.direction = .established ∧
        HasMemory (flow.buffer update.direction) := by
  obtain ⟨tcp, sessionEq⟩ := Option.ne_none_iff_exists'.mp hasSession.session
  rw [Flow.state_eq sessionEq] at shaken ⊢
  rw [Passed, Update.insertion, if_pos hasSession.proto, sessionEq, header,
    Flow.buffer_eq sessionEq]
  dsimp only
  rw [TcpSession.insertion, tcp.prepared_of_shaken stream update.alloc shaken]
  cases tcp.buffer update.direction with
  | none => simp [payloadCall, HasMemory]
  | some buffer =>
      by_cases reached :
          nextState tcp.state hdr.tcpFlags update.direction = .established ∧
            buffer.data ≠ none
      · rw [payloadCall, if_pos ⟨payload, reached⟩]
        simp [HasMemory, reached]
      · rw [payloadCall, if_neg fun all => reached all.2]
        simpa [HasMemory] using reached

/-- The flow since its handshake: it is established as long as no packet carried
FIN. -/
structure SinceHandshake (past : List Update) (flow : Flow) : Prop where
  shaken : flow.state.Shaken
  established : flow.state = .established ↔
    ∀ seen ∈ past, ¬seen.Carries RTE_TCP_FIN_FLAG

theorem SinceHandshake.step {past : List Update} (since : SinceHandshake past flow)
    (noReset : ¬update.Carries RTE_TCP_RST_FLAG)
    (step : FlowStep stream flow update after) :
    SinceHandshake (past ++ [update]) after := by
  have split : (∀ seen ∈ past ++ [update], ¬seen.Carries RTE_TCP_FIN_FLAG) ↔
      flow.state = .established ∧ ¬update.Carries RTE_TCP_FIN_FLAG := by
    rw [since.established]
    simp [or_imp, forall_and]
  cases header : update.pkt.tcpHdr with
  | none =>
      have noFin : ¬update.Carries RTE_TCP_FIN_FLAG := by
        simp [Update.Carries, header]
      have state : after.state = flow.state := by
        cases step with
        | untouched _ same => rw [Flow.state, same, Flow.state]
        | session tcp session hdr sessionEq present afterEq step =>
            rw [header] at present
            cases present
      refine ⟨by rw [state]; exact since.shaken, ?_⟩
      rw [state, split, and_iff_left noFin]
  | some hdr =>
      rw [Update.carries_iff header] at noReset
      refine ⟨by rw [step.state header]; exact nextState_shaken since.shaken, ?_⟩
      rw [step.state header, nextState_established_iff since.shaken noReset, split,
        Update.carries_iff header]

/-- One packet after the handshake: it is passed on exactly when it is sent in
time. -/
theorem SinceHandshake.passed_iff_sentInTime {before past : List Update}
    (since : SinceHandshake past flow) (hasSession : HasSession flow)
    (noReset : ¬update.Carries RTE_TCP_RST_FLAG) :
    NoSkipLaw stream before past flow update after ↔
      SentInTime before past flow update after := by
  apply imp_congr_right
  intro sending
  obtain ⟨hdr, header⟩ := Option.ne_none_iff_exists'.mp sending.header
  rw [Update.carries_iff header] at noReset
  rw [passed_iff hasSession since.shaken header sending.payload,
    nextState_established_iff since.shaken noReset, since.established,
    Update.carries_iff header, and_assoc, and_left_comm]

end Passing

/-- After the handshake, as long as no reset is seen, no payload is skipped exactly
when every payload in a direction without FIN is sent in time. -/
theorem no_payload_skipped_iff (config : FlowConfig) (stream : StreamConfig)
    (stats reached : ReassemblyStats) (alloc : FlowAllocation) (now : BitVec 64)
    (id : Nat) (hash : BitVec 32) (pkt : Packet) (tcp : pkt.ipProto = IPPROTO_TCP)
    (granted : alloc.session = true) (before rest : List Update) (flow : Flow)
    (handshake : runUpdates config stream
      (newFlow config alloc now id hash pkt, stats) before = .ok (flow, reached))
    (established : flow.state = .established)
    (noReset : ∀ update ∈ rest, ¬update.Carries RTE_TCP_RST_FLAG) :
    (∃ final, runUpdates config stream (flow, reached) rest = .ok final) ∧
      (AlongRun config stream (NoSkipLaw stream before) [] (flow, reached) rest ↔
        AlongRun config stream (SentInTime before) [] (flow, reached) rest) := by
  have hasSession : HasSession flow := by
    obtain ⟨final, run, finalSession⟩ := HasSession.runUpdates config stream before
      (newFlow_hasSession config alloc now id hash pkt tcp granted)
    rw [handshake] at run
    cases run
    exact finalSession
  have since : SinceHandshake [] flow := by
    constructor
    · rw [established]
      trivial
    · simp [established]
  have quiet : AlongRun config stream
      (fun _ _ update _ => ¬update.Carries RTE_TCP_RST_FLAG) [] (flow, reached) rest :=
    AlongRun.of_forall rest noReset
  obtain ⟨final, run, _⟩ := hasSession.runUpdates config stream rest
  refine ⟨⟨final, run⟩, ?_, ?_⟩
  · intro lawful
    apply hasSession.alongRun SinceHandshake _ rest since (AlongRun.and rest lawful quiet)
    intro past flow update after session since ⟨lawful, quiet⟩ step
    exact ⟨(since.passed_iff_sentInTime session quiet).mp lawful,
      since.step quiet step⟩
  · intro inTime
    apply hasSession.alongRun SinceHandshake _ rest since (AlongRun.and rest inTime quiet)
    intro past flow update after session since ⟨inTime, quiet⟩ step
    exact ⟨(since.passed_iff_sentInTime session quiet).mpr inTime,
      since.step quiet step⟩

/-- The three packets of a handshake between the two hosts of `tcpUpdate`. -/
def threeWay : List Update :=
  [tcpUpdate RTE_TCP_SYN_FLAG 100 .toserver,
    tcpUpdate (RTE_TCP_SYN_FLAG ||| RTE_TCP_ACK_FLAG) 500 .toclient,
    tcpUpdate RTE_TCP_ACK_FLAG 101 .toserver]

/-- A request, after which the client closes. -/
theorem no_payload_skipped_iff_request :
    let config : FlowConfig := ⟨16, 16, 30, 3600⟩
    let first := tcpUpdate RTE_TCP_SYN_FLAG 100 .toserver
    let rest := [tcpUpdate RTE_TCP_ACK_FLAG 101 .toserver [1, 2],
      tcpUpdate (RTE_TCP_FIN_FLAG ||| RTE_TCP_ACK_FLAG) 103 .toserver]
    ∃ flow reached, runUpdates config .default
        (newFlow config {} 0 7 0 first.pkt, {}) threeWay = .ok (flow, reached) ∧
      flow.state = .established ∧
      AlongRun config .default (NoSkipLaw .default threeWay) [] (flow, reached)
        rest := by
  intro config first rest
  refine ⟨_, _, rfl, by decide, ?_⟩
  apply (no_payload_skipped_iff config .default {} _ {} 0 7 0 first.pkt rfl rfl
    threeWay rest _ rfl (by decide) (by decide)).2.mpr
  intro next _
  refine ⟨fun _ => by decide, ?_⟩
  intro last _
  exact ⟨fun sending => absurd sending.payload (by decide), trivial⟩

/-- The client's last data comes on its FIN segment: it is skipped. -/
theorem payload_on_fin_skipped :
    let config : FlowConfig := ⟨16, 16, 30, 3600⟩
    let first := tcpUpdate RTE_TCP_SYN_FLAG 100 .toserver
    let last := tcpUpdate (RTE_TCP_FIN_FLAG ||| RTE_TCP_ACK_FLAG) 101 .toserver [1, 2]
    ∃ flow reached, runUpdates config .default
        (newFlow config {} 0 7 0 first.pkt, {}) threeWay = .ok (flow, reached) ∧
      flow.state = .established ∧ ¬last.Carries RTE_TCP_RST_FLAG ∧
      StillSending threeWay last ∧ last.insertion .default flow = none ∧
      ¬AlongRun config .default (NoSkipLaw .default threeWay) [] (flow, reached)
        [last] := by
  intro config first last
  refine ⟨_, _, rfl, by decide, by decide, by decide, by decide, ?_⟩
  intro along
  obtain ⟨lawful, _⟩ := along _ rfl
  obtain ⟨call, made, _⟩ := lawful (by decide)
  exact Option.some_ne_none call (made.symm.trans (by decide))

end NetDefender.Flows
