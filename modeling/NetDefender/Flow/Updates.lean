import NetDefender.Flow.Session

/-!
# What one packet does to a session

The session part of `flow_update` in three stages: the state machine, the set-up
of the stream buffers, and the insertion of the payload.  Under the one policy
that `flow_update` uses the insertion never faults, so that every run of updates
has a result; laws about such runs are stated step by step, with the packets seen
before the step.
-/

namespace NetDefender.Stream

/-- The policy and the presence of memory survive a drain. -/
theorem Drained.keeps {before after : StreamBuffer} (drained : Drained before after) :
    after.osPolicy = before.osPolicy ∧ (before.data ≠ none → after.data ≠ none) := by
  obtain ⟨last, ⟨policy, live⟩, _, same⟩ := drained.invariant
    (motive := fun sb => sb.osPolicy = before.osPolicy ∧
      (before.data ≠ none → sb.data ≠ none)) ⟨rfl, id⟩ (by
        rintro sb next ⟨policy, live⟩ step
        cases step with
        | stale list other behind => exact ⟨policy, live⟩
        | deliver list other fits =>
            refine ⟨policy, fun present missing => live present ?_⟩
            simpa [StreamBuffer.unlinkHead, StreamBuffer.append] using missing)
  rw [same.osPolicy, same.data]
  exact ⟨policy, live⟩

/-- The policy and the presence of memory survive an insertion. -/
theorem InsertEffect.keeps {config : StreamConfig} {alloc : Allocation}
    {sb after : StreamBuffer} {segment : Incoming}
    (effect : InsertEffect config alloc sb segment after) :
    after.osPolicy = sb.osPolicy ∧ (sb.data ≠ none → after.data ≠ none) := by
  cases effect with
  | ignored reason same =>
      rw [same.osPolicy, same.data]
      exact ⟨rfl, id⟩
  | inOrder valid live next fits drained =>
      refine ⟨drained.keeps.1, fun present => drained.keeps.2 ?_⟩
      simpa [StreamBuffer.append] using present
  | queued middle front back valid live other nonempty room enqueued drained =>
      rw [drained.keeps.1, enqueued.window.osPolicy]
      refine ⟨rfl, fun present => drained.keeps.2 ?_⟩
      rw [enqueued.window.data]
      exact present

end NetDefender.Stream

namespace NetDefender.Flows

open NetDefender.Stream

/-! ## The insertion of a payload -/

/-- The arguments of a call of `stream_buffer_insert_segment`. -/
structure InsertCall where
  sb : StreamBuffer
  seq : BitVec 32
  payload : Option (List UInt8)
  payloadLen : BitVec 16
  deriving DecidableEq, Repr

/-- The call of `stream_buffer_insert_segment` that `flow_update` makes for a
packet, if it makes one; `sb` is the stream buffer of the packet's direction. -/
def payloadCall (state : TcpState) (hdr : TcpHdr) (pkt : Packet) :
    Option StreamBuffer → Option InsertCall
  | none => none
  | some buffer =>
      if pkt.payloadLen > 0 ∧ state = .established ∧ buffer.data ≠ none then
        some
          { sb := buffer
            seq := hdr.sentSeq
            payload := pkt.payload
            payloadLen := pkt.payloadLen }
      else none

/-- The buffer after a call. -/
def InsertCall.run (config : StreamConfig) (alloc : Allocation)
    (stats : ReassemblyStats) (call : InsertCall) :
    Except Fault (Option StreamBuffer × ReassemblyStats) :=
  match streamBufferInsertSegment config alloc { sb := call.sb, stats } call.seq
      call.payload call.payloadLen with
  | .error fault => .error fault
  | .ok (_, st) => .ok (some st.sb, st.stats)

theorem insertPayload_eq (config : StreamConfig) (alloc : Allocation)
    (state : TcpState) (hdr : TcpHdr) (pkt : Packet) (stats : ReassemblyStats)
    (sb : Option StreamBuffer) :
    insertPayload config alloc state hdr pkt stats sb =
      match payloadCall state hdr pkt sb with
      | none => .ok (sb, stats)
      | some call => call.run config alloc stats := by
  cases sb with
  | none => rfl
  | some buffer =>
      rw [insertPayload, payloadCall]
      split <;> rfl

/-- A buffer whose memory is in use follows a policy that favors new data. -/
def Ready (sb : Option StreamBuffer) : Prop :=
  ∀ buffer ∈ sb, buffer.data ≠ none → buffer.osPolicy.FavorsNew

/-- A buffer that waits for its memory. -/
def Awaiting (sb : Option StreamBuffer) : Prop := ∃ buffer ∈ sb, buffer.data = none

/-- A buffer that has its memory. -/
def HasMemory (sb : Option StreamBuffer) : Prop := ∃ buffer ∈ sb, buffer.data ≠ none

/-- Two buffers that both have memory or both have none. -/
def SameMemory (before after : Option StreamBuffer) : Prop :=
  (Awaiting after ↔ Awaiting before) ∧ (HasMemory after ↔ HasMemory before)

theorem SameMemory.refl (sb : Option StreamBuffer) : SameMemory sb sb :=
  ⟨Iff.rfl, Iff.rfl⟩

theorem InsertCall.run_ok (config : StreamConfig) (alloc : Allocation)
    (stats : ReassemblyStats) (call : InsertCall) (live : call.sb.data ≠ none)
    (favors : call.sb.osPolicy.FavorsNew) :
    ∃ after stats', call.run config alloc stats = .ok (some after, stats') ∧
      after.data ≠ none ∧ after.osPolicy.FavorsNew := by
  cases given : call.payload with
  | none =>
      refine ⟨call.sb, stats, ?_, live, favors⟩
      rw [InsertCall.run, given]
      rfl
  | some payload =>
      obtain ⟨ret, st, equation, effect⟩ := streamBufferInsertSegment_effect config
        alloc { sb := call.sb, stats } ⟨call.seq, payload, call.payloadLen⟩ favors
      refine ⟨st.sb, st.stats, ?_, effect.keeps.2 live, ?_⟩
      · simp only [InsertCall.run, given, equation]
      · rw [effect.keeps.1]
        exact favors

/-- What the last stage of `flow_update` does to the buffer of the packet's
direction. -/
theorem insertPayload_ok (config : StreamConfig) (alloc : Allocation)
    (state : TcpState) (hdr : TcpHdr) (pkt : Packet) (stats : ReassemblyStats)
    {sb : Option StreamBuffer} (ready : Ready sb) :
    ∃ after stats',
      insertPayload config alloc state hdr pkt stats sb = .ok (after, stats') ∧
        Ready after ∧ SameMemory sb after ∧
        (payloadCall state hdr pkt sb = none → after = sb) := by
  rw [insertPayload_eq]
  cases call : payloadCall state hdr pkt sb with
  | none => exact ⟨sb, stats, rfl, ready, SameMemory.refl sb, fun _ => rfl⟩
  | some made =>
      cases sb with
      | none => cases call
      | some buffer =>
          rw [payloadCall] at call
          split at call
          next passed =>
            cases call
            obtain ⟨after, stats', equation, live, favors⟩ := InsertCall.run_ok config
              alloc stats ⟨buffer, hdr.sentSeq, pkt.payload, pkt.payloadLen⟩
              passed.2.2 (ready buffer rfl passed.2.2)
            refine ⟨some after, stats', equation, ?_, ?_, fun missing => nomatch missing⟩
            · rintro other ⟨⟩ _
              exact favors
            · simp [SameMemory, Awaiting, HasMemory, live, passed.2.2]
          next => cases call

/-! ## The set-up of the buffers -/

/-- The state in which the buffer of a direction is set up. -/
def Direction.setUpState : Direction → TcpState
  | .toserver => .synSent
  | .toclient => .synRecv

/-- Whether the memory of the buffer of a direction is granted. -/
def UpdateAllocation.data (alloc : UpdateAllocation) : Direction → Bool
  | .toserver => alloc.toserverData
  | .toclient => alloc.toclientData

/-- The buffer of a direction after the set-up stage of `flow_update`. -/
def TcpSession.prepared (config : StreamConfig) (alloc : UpdateAllocation)
    (tcp : TcpSession) (hdr : TcpHdr) (direction side : Direction) :
    Option StreamBuffer :=
  (initStreamBuffer config (alloc.data side) side.setUpState
    (nextState tcp.state hdr.tcpFlags direction) hdr {} (tcp.buffer side)).1

/-- The buffer that is set up does not depend on the statistics. -/
theorem initStreamBuffer_stats (config : StreamConfig) (allocated : Bool)
    (expected state : TcpState) (hdr : TcpHdr) (stats : ReassemblyStats)
    (sb : Option StreamBuffer) :
    (initStreamBuffer config allocated expected state hdr stats sb).1 =
      (initStreamBuffer config allocated expected state hdr {} sb).1 := by
  cases sb with
  | none => rfl
  | some buffer =>
      simp only [initStreamBuffer]
      split
      next => cases allocated <;> rfl
      next => rfl

/-- The three outcomes of the set-up stage. -/
theorem initStreamBuffer_cases (config : StreamConfig) (allocated : Bool)
    (expected state : TcpState) (hdr : TcpHdr) (sb : Option StreamBuffer) :
    (initStreamBuffer config allocated expected state hdr {} sb).1 = sb ∨
      (state = expected ∧ Awaiting sb ∧
        ((allocated = true ∧ ∃ buffer,
            (initStreamBuffer config allocated expected state hdr {} sb).1 =
              some buffer ∧ buffer.data ≠ none ∧ buffer.osPolicy.FavorsNew) ∨
          (allocated = false ∧ ∃ buffer,
            (initStreamBuffer config allocated expected state hdr {} sb).1 =
              some buffer ∧ buffer.data = none))) := by
  cases sb with
  | none => exact Or.inl rfl
  | some buffer =>
      simp only [initStreamBuffer]
      split
      next waiting =>
        right
        refine ⟨waiting.1, ⟨buffer, rfl, waiting.2⟩, ?_⟩
        cases allocated with
        | false => exact Or.inr ⟨rfl, _, rfl, rfl⟩
        | true => exact Or.inl ⟨rfl, _, rfl, by simp [streamBufferInit], trivial⟩
      next => exact Or.inl rfl

theorem initStreamBuffer_ready {config : StreamConfig} {allocated : Bool}
    {expected state : TcpState} {hdr : TcpHdr} {sb : Option StreamBuffer}
    (ready : Ready sb) :
    Ready (initStreamBuffer config allocated expected state hdr {} sb).1 := by
  rcases initStreamBuffer_cases config allocated expected state hdr sb with
    same | ⟨_, _, ⟨_, buffer, setUp, _, favors⟩ | ⟨_, buffer, failed, missing⟩⟩
  · rw [same]
    exact ready
  · rw [setUp]
    rintro other ⟨⟩ _
    exact favors
  · rw [failed]
    rintro other ⟨⟩ present
    exact absurd missing present

/-! ## The session -/

/-- Both buffers of the session are ready. -/
def TcpSession.Ready (tcp : TcpSession) : Prop :=
  ∀ side, NetDefender.Flows.Ready (tcp.buffer side)

/-- The call of `stream_buffer_insert_segment` for a packet of the session. -/
def TcpSession.insertion (config : StreamConfig) (alloc : UpdateAllocation)
    (tcp : TcpSession) (hdr : TcpHdr) (pkt : Packet) (direction : Direction) :
    Option InsertCall :=
  payloadCall (nextState tcp.state hdr.tcpFlags direction) hdr pkt
    (tcp.prepared config alloc hdr direction direction)

/-- The session after one packet. -/
structure SessionStep (config : StreamConfig) (alloc : UpdateAllocation)
    (tcp : TcpSession) (hdr : TcpHdr) (pkt : Packet) (direction : Direction)
    (after : TcpSession) : Prop where
  state : after.state = nextState tcp.state hdr.tcpFlags direction
  other : ∀ side ≠ direction,
    after.buffer side = tcp.prepared config alloc hdr direction side
  memory : SameMemory (tcp.prepared config alloc hdr direction direction)
    (after.buffer direction)
  unchanged : tcp.insertion config alloc hdr pkt direction = none →
    after.buffer direction = tcp.prepared config alloc hdr direction direction
  ready : after.Ready

theorem updateSession_step (config : StreamConfig) (alloc : UpdateAllocation)
    (stats : ReassemblyStats) {tcp : TcpSession} (hdr : TcpHdr) (pkt : Packet)
    (direction : Direction) (ready : tcp.Ready) :
    ∃ after stats',
      updateSession config alloc stats tcp hdr pkt direction = .ok (after, stats') ∧
        SessionStep config alloc tcp hdr pkt direction after := by
  have prepared : ∀ side,
      Ready (tcp.prepared config alloc hdr direction side) :=
    fun side => initStreamBuffer_ready (ready side)
  have server : ∀ stats, (initStreamBuffer config alloc.toserverData .synSent
      (nextState tcp.state hdr.tcpFlags direction) hdr stats tcp.toserverSb).1 =
      tcp.prepared config alloc hdr direction .toserver :=
    fun stats => initStreamBuffer_stats ..
  have client : ∀ stats, (initStreamBuffer config alloc.toclientData .synRecv
      (nextState tcp.state hdr.tcpFlags direction) hdr stats tcp.toclientSb).1 =
      tcp.prepared config alloc hdr direction .toclient :=
    fun stats => initStreamBuffer_stats ..
  cases direction with
  | toserver =>
      obtain ⟨sb, stats', equation, sbReady, memory, unchanged⟩ :=
        insertPayload_ok config alloc.insert
          (nextState tcp.state hdr.tcpFlags .toserver) hdr pkt
          (initStreamBuffer config alloc.toclientData .synRecv
            (nextState tcp.state hdr.tcpFlags .toserver) hdr
            (initStreamBuffer config alloc.toserverData .synSent
              (nextState tcp.state hdr.tcpFlags .toserver) hdr stats
              tcp.toserverSb).2 tcp.toclientSb).2 (prepared .toserver)
      simp only [updateSession, server, client, equation]
      refine ⟨_, _, rfl, rfl, ?_, memory, unchanged, ?_⟩
      · rintro (_ | _) different
        · exact absurd rfl different
        · rfl
      · rintro (_ | _)
        · exact sbReady
        · exact prepared .toclient
  | toclient =>
      obtain ⟨sb, stats', equation, sbReady, memory, unchanged⟩ :=
        insertPayload_ok config alloc.insert
          (nextState tcp.state hdr.tcpFlags .toclient) hdr pkt
          (initStreamBuffer config alloc.toclientData .synRecv
            (nextState tcp.state hdr.tcpFlags .toclient) hdr
            (initStreamBuffer config alloc.toserverData .synSent
              (nextState tcp.state hdr.tcpFlags .toclient) hdr stats
              tcp.toserverSb).2 tcp.toclientSb).2 (prepared .toclient)
      simp only [updateSession, server, client, equation]
      refine ⟨_, _, rfl, rfl, ?_, memory, unchanged, ?_⟩
      · rintro (_ | _) different
        · rfl
        · exact absurd rfl different
      · rintro (_ | _)
        · exact prepared .toserver
        · exact sbReady

/-! ## Runs of updates -/

/-- One call of `flow_update`. -/
structure Update where
  alloc : UpdateAllocation
  now : BitVec 64
  pkt : Packet
  direction : Direction

/-- The flow after one call. -/
def Update.run (config : FlowConfig) (stream : StreamConfig)
    (st : Flow × ReassemblyStats) (update : Update) :
    Except Fault (Flow × ReassemblyStats) :=
  flowUpdate config stream update.alloc update.now st.2 st.1 update.pkt
    update.direction

/-- The flow after a list of calls. -/
def runUpdates (config : FlowConfig) (stream : StreamConfig)
    (st : Flow × ReassemblyStats) (updates : List Update) :
    Except Fault (Flow × ReassemblyStats) :=
  updates.foldlM (Update.run config stream) st

/-- The packet has a TCP header with the flag. -/
def Update.Carries (flag : BitVec 8) (update : Update) : Prop :=
  ∃ hdr ∈ update.pkt.tcpHdr, hasFlag hdr.tcpFlags flag

instance (flag : BitVec 8) (update : Update) : Decidable (update.Carries flag) :=
  inferInstanceAs (Decidable (∃ hdr ∈ update.pkt.tcpHdr, hasFlag hdr.tcpFlags flag))

/-- A law about each step of a run: the packets before it, the flow before it, the
packet, and the flow after it. -/
def AlongRun (config : FlowConfig) (stream : StreamConfig)
    (law : List Update → Flow → Update → Flow → Prop) :
    List Update → Flow × ReassemblyStats → List Update → Prop
  | _, _, [] => True
  | past, st, update :: updates =>
      ∀ next, update.run config stream st = .ok next →
        law past st.1 update next.1 ∧
          AlongRun config stream law (past ++ [update]) next updates

theorem AlongRun.cons {config : FlowConfig} {stream : StreamConfig}
    {law : List Update → Flow → Update → Flow → Prop} {past : List Update}
    {st next : Flow × ReassemblyStats} {update : Update} {updates : List Update}
    (step : update.run config stream st = .ok next)
    (first : law past st.1 update next.1)
    (rest : AlongRun config stream law (past ++ [update]) next updates) :
    AlongRun config stream law past st (update :: updates) := by
  intro other equation
  rw [step] at equation
  cases equation
  exact ⟨first, rest⟩

theorem AlongRun.and {config : FlowConfig} {stream : StreamConfig}
    {left right : List Update → Flow → Update → Flow → Prop}
    (updates : List Update) : ∀ {past : List Update} {st : Flow × ReassemblyStats},
      AlongRun config stream left past st updates →
      AlongRun config stream right past st updates →
      AlongRun config stream (fun past flow update after =>
        left past flow update after ∧ right past flow update after) past st
        updates := by
  induction updates with
  | nil =>
      intro past st _ _
      trivial
  | cons update updates inductionHypothesis =>
      intro past st lefts rights next run
      obtain ⟨leftHere, leftRest⟩ := lefts next run
      obtain ⟨rightHere, rightRest⟩ := rights next run
      exact ⟨⟨leftHere, rightHere⟩, inductionHypothesis leftRest rightRest⟩

theorem AlongRun.of_forall {config : FlowConfig} {stream : StreamConfig}
    {law : Update → Prop} (updates : List Update) :
    ∀ {past : List Update} {st : Flow × ReassemblyStats},
      (∀ update ∈ updates, law update) →
      AlongRun config stream (fun _ _ update _ => law update) past st updates := by
  induction updates with
  | nil =>
      intro past st _
      trivial
  | cons update updates inductionHypothesis =>
      intro past st every next _
      exact ⟨every update List.mem_cons_self, inductionHypothesis
        fun other member => every other (List.mem_cons_of_mem _ member)⟩

/-- The state of the flow's session. -/
def Flow.state (flow : Flow) : TcpState :=
  match flow.tcp with
  | none => .none
  | some tcp => tcp.state

/-- The stream buffer of a direction. -/
def Flow.buffer (flow : Flow) (side : Direction) : Option StreamBuffer :=
  flow.tcp.bind fun tcp => tcp.buffer side

/-- The call of `stream_buffer_insert_segment` that an update makes. -/
def Update.insertion (stream : StreamConfig) (flow : Flow) (update : Update) :
    Option InsertCall :=
  if flow.proto = IPPROTO_TCP then
    match flow.tcp, update.pkt.tcpHdr with
    | some tcp, some hdr =>
        tcp.insertion stream update.alloc hdr update.pkt update.direction
    | _, _ => none
  else none

section Session

variable {flow : Flow} {tcp : TcpSession} {hdr : TcpHdr} {update : Update}
variable {flag : BitVec 8}

theorem Flow.state_eq (sessionEq : flow.tcp = some tcp) : flow.state = tcp.state := by
  rw [Flow.state, sessionEq]

theorem Flow.buffer_eq (sessionEq : flow.tcp = some tcp) (side : Direction) :
    flow.buffer side = tcp.buffer side := by
  rw [Flow.buffer, sessionEq]
  rfl

theorem Update.carries_iff (header : update.pkt.tcpHdr = some hdr) :
    update.Carries flag ↔ hasFlag hdr.tcpFlags flag := by
  simp [Update.Carries, header]

end Session

/-- The sessions of the flow are ready. -/
def Flow.Ready (flow : Flow) : Prop := ∀ tcp ∈ flow.tcp, tcp.Ready

/-- A TCP flow whose session was allocated. -/
structure HasSession (flow : Flow) : Prop where
  proto : flow.proto = IPPROTO_TCP
  session : flow.tcp ≠ none
  ready : flow.Ready

/-- `flow_update` never faults on a flow that is ready. -/
theorem flowUpdate_ok (config : FlowConfig) (stream : StreamConfig)
    (alloc : UpdateAllocation) (now : BitVec 64) (stats : ReassemblyStats)
    {flow : Flow} (pkt : Packet) (direction : Direction) (ready : flow.Ready) :
    ∃ next, flowUpdate config stream alloc now stats flow pkt direction = .ok next ∧
      next.1.Ready ∧ next.1.useCnt = flow.useCnt ∧ next.1.proto = flow.proto := by
  obtain ⟨sameTcp, sameProto⟩ := countPacket_tcp now flow pkt direction
  have sameCount : (countPacket now flow pkt direction).useCnt = flow.useCnt := by
    cases direction <;> rfl
  have untouched : (countPacket now flow pkt direction).Ready := by
    intro tcp member
    rw [sameTcp] at member
    exact ready tcp member
  simp only [flowUpdate]
  split
  next =>
    split
    next tcp hdr sessionEq header =>
      rw [sameTcp] at sessionEq
      obtain ⟨after, stats', equation, step⟩ := updateSession_step stream alloc stats
        hdr pkt direction (ready tcp sessionEq)
      rw [equation]
      refine ⟨_, rfl, ?_, sameCount, sameProto⟩
      rintro session ⟨⟩
      exact step.ready
    next => exact ⟨_, rfl, untouched, sameCount, sameProto⟩
  next => exact ⟨_, rfl, untouched, sameCount, sameProto⟩

/-- What one update does to a flow with a session. -/
inductive FlowStep (stream : StreamConfig) (flow : Flow) (update : Update)
    (after : Flow) : Prop where
  | untouched (header : update.pkt.tcpHdr = none) (same : after.tcp = flow.tcp)
  | session (tcp session : TcpSession) (hdr : TcpHdr)
      (sessionEq : flow.tcp = some tcp) (header : update.pkt.tcpHdr = some hdr)
      (afterEq : after.tcp = some session)
      (step : SessionStep stream update.alloc tcp hdr update.pkt update.direction
        session)

theorem HasSession.step {flow : Flow} (hasSession : HasSession flow)
    (config : FlowConfig) (stream : StreamConfig) (stats : ReassemblyStats)
    (update : Update) :
    ∃ next, update.run config stream (flow, stats) = .ok next ∧
      HasSession next.1 ∧ FlowStep stream flow update next.1 := by
  obtain ⟨tcp, sessionEq⟩ := Option.ne_none_iff_exists'.mp hasSession.session
  obtain ⟨next, run, ready, _, proto⟩ := flowUpdate_ok config stream update.alloc
    update.now stats update.pkt update.direction hasSession.ready
  have nextProto : next.1.proto = IPPROTO_TCP := proto.trans hasSession.proto
  cases header : update.pkt.tcpHdr with
  | none =>
      obtain ⟨sameTcp, _⟩ := countPacket_tcp update.now flow update.pkt
        update.direction
      have same : next.1.tcp = flow.tcp := by
        simp only [flowUpdate, header, sameTcp, sessionEq] at run
        split at run
        next =>
          cases run
          exact sameTcp
        next =>
          cases run
          exact sameTcp
      refine ⟨next, run, ⟨nextProto, ?_, ready⟩, .untouched header same⟩
      rw [same]
      exact hasSession.session
  | some hdr =>
      obtain ⟨session, stats', equation, step⟩ := updateSession_step stream
        update.alloc stats hdr update.pkt update.direction
        (hasSession.ready tcp sessionEq)
      obtain ⟨final, result, _, finalSession⟩ := flowUpdate_tcp config update.now
        hasSession.proto sessionEq header equation
      rw [run] at result
      cases result
      refine ⟨_, run, ⟨nextProto, ?_, ready⟩,
        .session tcp session hdr sessionEq header finalSession step⟩
      rw [finalSession]
      exact Option.some_ne_none _

/-- Every run of updates on a flow with a session has a result. -/
theorem HasSession.runUpdates (config : FlowConfig) (stream : StreamConfig)
    (updates : List Update) : ∀ {flow : Flow} {stats : ReassemblyStats},
      HasSession flow →
      ∃ final, runUpdates config stream (flow, stats) updates = .ok final ∧
        HasSession final.1 := by
  intro flow stats hasSession
  refine @Fallible.exists_foldlM_invariant _ _ _ (Update.run config stream)
    (fun state => HasSession state.1) (fun _ => True) ?_ updates (flow, stats) hasSession
    fun _ _ => trivial
  intro state update hasSession _
  obtain ⟨next, run, nextSession, _⟩ := hasSession.step config stream state.2 update
  exact ⟨next, run, nextSession⟩

/-- The rule for laws along a run: an invariant of the packets seen so far and the
flow, kept by every guarded step, that gives the law at every step. -/
theorem HasSession.alongRun {config : FlowConfig} {stream : StreamConfig}
    {guard law : List Update → Flow → Update → Flow → Prop}
    (invariant : List Update → Flow → Prop)
    (step : ∀ {past flow update after}, HasSession flow → invariant past flow →
      guard past flow update after → FlowStep stream flow update after →
      law past flow update after ∧ invariant (past ++ [update]) after)
    (updates : List Update) : ∀ {past : List Update} {flow : Flow}
      {stats : ReassemblyStats}, HasSession flow → invariant past flow →
      AlongRun config stream guard past (flow, stats) updates →
      AlongRun config stream law past (flow, stats) updates := by
  induction updates with
  | nil =>
      intro past flow stats _ _ _
      trivial
  | cons update updates inductionHypothesis =>
      intro past flow stats hasSession holds guarded next run
      obtain ⟨reached, reachedRun, nextSession, flowStep⟩ :=
        hasSession.step config stream stats update
      rw [run] at reachedRun
      cases reachedRun
      obtain ⟨here, rest⟩ := guarded next run
      obtain ⟨lawful, kept⟩ := step hasSession holds here flowStep
      exact ⟨lawful, inductionHypothesis nextSession kept rest⟩

/-- The buffers of a new session are zeroed or missing, so that a new flow is
ready. -/
theorem newFlow_ready (config : FlowConfig) (alloc : FlowAllocation) (now : BitVec 64)
    (id : Nat) (hash : BitVec 32) (pkt : Packet) :
    (newFlow config alloc now id hash pkt).Ready := by
  intro created member side buffer present live
  rw [(newFlow_tcp config alloc now id hash pkt).2, newSession] at member
  split at member
  next =>
    split at member
    next =>
      cases member
      have zeroed : buffer = .zeroed := by
        cases side <;> simp only [TcpSession.buffer] at present <;>
          split at present <;> cases present <;> rfl
      rw [zeroed] at live
      exact absurd rfl live
    next => cases member
  next => cases member

/-- The flow that `flow_get` creates for a TCP packet has a session, unless its
allocation failed. -/
theorem newFlow_hasSession (config : FlowConfig) (alloc : FlowAllocation)
    (now : BitVec 64) (id : Nat) (hash : BitVec 32) (pkt : Packet)
    (tcp : pkt.ipProto = IPPROTO_TCP) (granted : alloc.session = true) :
    HasSession (newFlow config alloc now id hash pkt) := by
  obtain ⟨proto, session⟩ := newFlow_tcp config alloc now id hash pkt
  rw [if_pos tcp, newSession, if_pos granted] at session
  refine ⟨proto.trans tcp, ?_, newFlow_ready config alloc now id hash pkt⟩
  rw [session]
  exact Option.some_ne_none _

/-- A TCP packet between two fixed hosts. -/
def tcpUpdate (tcpFlags : BitVec 8) (sentSeq : BitVec 32) (direction : Direction)
    (payload : List UInt8 := []) : Update where
  alloc := .ok
  now := 0
  pkt := tcpPacket
    { ipVersion := 4
      ipProto := IPPROTO_TCP
      srcAddr := { word0 := 0x0A000001 }
      dstAddr := { word0 := 0x0A000002 }
      srcPort := 40000
      dstPort := 443 } tcpFlags sentSeq payload
  direction

end NetDefender.Flows
