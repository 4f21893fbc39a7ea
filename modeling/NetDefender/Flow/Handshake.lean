import NetDefender.Flow.Updates

/-!
# The handshake

Each stream buffer should be anchored by the SYN of its own direction, and a
session should be established by two SYNs, one from each side.  `flow_update`
looks at the flags only: a SYN that the client retransmits counts as the server's
answer, and a buffer whose memory was refused is set up by whatever packet comes
next in the same state.  In a run without such packets the handshake is sound.
-/

namespace NetDefender.Flows

open NetDefender.Stream

/-! ## The law -/

/-- What one step of a handshake may do. -/
structure HandshakeLaw (past : List Update) (flow : Flow) (update : Update)
    (after : Flow) : Prop where
  anchored : ∀ side, Awaiting (flow.buffer side) → HasMemory (after.buffer side) →
    update.direction = side ∧ update.Carries RTE_TCP_SYN_FLAG
  established : flow.state ≠ .established → after.state = .established →
    ∀ side, ∃ seen ∈ past ++ [update],
      seen.direction = side ∧ seen.Carries RTE_TCP_SYN_FLAG

/-- The condition on a packet: in `TCP_SYN_SENT` a SYN comes from the server, and
a buffer that still waits for its memory in the state that sets it up is not set
up by a packet other than the SYN of its direction. -/
structure Answers (flow : Flow) (update : Update) : Prop where
  answer : flow.state = .synSent → update.Carries RTE_TCP_SYN_FLAG →
    update.direction = .toclient
  toserver : flow.state = .synSent → Awaiting (flow.buffer .toserver) →
    update.pkt.tcpHdr = none ∨ update.alloc.toserverData = false ∨
      update.Carries RTE_TCP_SYN_FLAG ∨ update.Carries RTE_TCP_RST_FLAG
  toclient : flow.state = .synRecv → Awaiting (flow.buffer .toclient) →
    update.pkt.tcpHdr = none ∨ update.alloc.toclientData = false ∨
      update.Carries RTE_TCP_ACK_FLAG ∨ update.Carries RTE_TCP_RST_FLAG ∨
      (update.direction = .toclient ∧ update.Carries RTE_TCP_SYN_FLAG)

instance (sb : Option StreamBuffer) : Decidable (Awaiting sb) :=
  inferInstanceAs (Decidable (∃ buffer ∈ sb, buffer.data = none))

instance (sb : Option StreamBuffer) : Decidable (HasMemory sb) :=
  inferInstanceAs (Decidable (∃ buffer ∈ sb, buffer.data ≠ none))

instance (flow : Flow) (update : Update) : Decidable (Answers flow update) :=
  decidable_of_iff
    ((flow.state = .synSent → update.Carries RTE_TCP_SYN_FLAG →
        update.direction = .toclient) ∧
      (flow.state = .synSent → Awaiting (flow.buffer .toserver) →
        update.pkt.tcpHdr = none ∨ update.alloc.toserverData = false ∨
          update.Carries RTE_TCP_SYN_FLAG ∨ update.Carries RTE_TCP_RST_FLAG) ∧
      (flow.state = .synRecv → Awaiting (flow.buffer .toclient) →
        update.pkt.tcpHdr = none ∨ update.alloc.toclientData = false ∨
          update.Carries RTE_TCP_ACK_FLAG ∨ update.Carries RTE_TCP_RST_FLAG ∨
          (update.direction = .toclient ∧ update.Carries RTE_TCP_SYN_FLAG)))
    ⟨fun ⟨answer, toserver, toclient⟩ => ⟨answer, toserver, toclient⟩,
      fun ⟨answer, toserver, toclient⟩ => ⟨answer, toserver, toclient⟩⟩

/-! ## The state machine -/

section States

variable {state : TcpState} {flags : BitVec 8} {direction : Direction}

theorem nextState_synSent (next : nextState state flags direction = .synSent) :
    (state = .none ∧ hasFlag flags RTE_TCP_SYN_FLAG) ∨
      (state = .synSent ∧ ¬hasFlag flags RTE_TCP_SYN_FLAG ∧
        ¬hasFlag flags RTE_TCP_RST_FLAG) := by
  revert next
  simp only [nextState]
  generalize hasFlag flags RTE_TCP_SYN_FLAG = syn
  generalize hasFlag flags RTE_TCP_ACK_FLAG = ack
  generalize hasFlag flags RTE_TCP_FIN_FLAG = fin
  generalize hasFlag flags RTE_TCP_RST_FLAG = rst
  cases state <;> cases direction <;> revert syn ack fin rst <;> decide

theorem nextState_synRecv (next : nextState state flags direction = .synRecv) :
    ((state = .none ∨ state = .synSent) ∧ hasFlag flags RTE_TCP_SYN_FLAG) ∨
      (state = .synRecv ∧ ¬hasFlag flags RTE_TCP_ACK_FLAG ∧
        ¬hasFlag flags RTE_TCP_RST_FLAG) := by
  revert next
  simp only [nextState]
  generalize hasFlag flags RTE_TCP_SYN_FLAG = syn
  generalize hasFlag flags RTE_TCP_ACK_FLAG = ack
  generalize hasFlag flags RTE_TCP_FIN_FLAG = fin
  generalize hasFlag flags RTE_TCP_RST_FLAG = rst
  cases state <;> cases direction <;> revert syn ack fin rst <;> decide

theorem nextState_established
    (next : nextState state flags direction = .established) :
    state = .synRecv ∨ state = .established := by
  revert next
  simp only [nextState]
  generalize hasFlag flags RTE_TCP_SYN_FLAG = syn
  generalize hasFlag flags RTE_TCP_ACK_FLAG = ack
  generalize hasFlag flags RTE_TCP_FIN_FLAG = fin
  generalize hasFlag flags RTE_TCP_RST_FLAG = rst
  cases state <;> cases direction <;> revert syn ack fin rst <;> decide

theorem nextState_ne_none (begun : state ≠ .none) :
    nextState state flags direction ≠ .none := by
  revert begun
  simp only [nextState]
  generalize hasFlag flags RTE_TCP_SYN_FLAG = syn
  generalize hasFlag flags RTE_TCP_ACK_FLAG = ack
  generalize hasFlag flags RTE_TCP_FIN_FLAG = fin
  generalize hasFlag flags RTE_TCP_RST_FLAG = rst
  cases state <;> cases direction <;> revert syn ack fin rst <;> decide

theorem nextState_of_synSent (direction : Direction)
    (noSyn : ¬hasFlag flags RTE_TCP_SYN_FLAG) :
    nextState .synSent flags direction = .synSent ∨
      nextState .synSent flags direction = .closed := by
  revert noSyn
  simp only [nextState]
  generalize hasFlag flags RTE_TCP_SYN_FLAG = syn
  generalize hasFlag flags RTE_TCP_ACK_FLAG = ack
  generalize hasFlag flags RTE_TCP_RST_FLAG = rst
  revert syn ack rst
  decide

end States

/-! ## One step -/

theorem not_hasMemory_of_awaiting {sb : Option StreamBuffer}
    (awaiting : Awaiting sb) : ¬HasMemory sb := by
  rintro ⟨other, present, live⟩
  obtain ⟨buffer, member, missing⟩ := awaiting
  cases member
  cases present
  exact live missing

/-- A buffer gets its memory in the state that sets it up, and by a grant. -/
theorem SessionStep.setUp {config : StreamConfig} {alloc : UpdateAllocation}
    {tcp after : TcpSession} {hdr : TcpHdr} {pkt : Packet}
    {direction side : Direction}
    (step : SessionStep config alloc tcp hdr pkt direction after)
    (awaiting : Awaiting (tcp.buffer side)) (memory : HasMemory (after.buffer side)) :
    nextState tcp.state hdr.tcpFlags direction = side.setUpState ∧
      alloc.data side = true := by
  have prepared : HasMemory (tcp.prepared config alloc hdr direction side) := by
    by_cases own : side = direction
    · subst own
      exact step.memory.2.mp memory
    · rw [← step.other side own]
      exact memory
  rw [TcpSession.prepared] at prepared
  rcases initStreamBuffer_cases config (alloc.data side) side.setUpState
    (nextState tcp.state hdr.tcpFlags direction) hdr (tcp.buffer side) with
    same | ⟨reached, _, ⟨granted, _⟩ | ⟨_, buffer, failed, missing⟩⟩
  · rw [same] at prepared
    exact absurd prepared (not_hasMemory_of_awaiting awaiting)
  · exact ⟨reached, granted⟩
  · rw [failed] at prepared
    exact absurd prepared (not_hasMemory_of_awaiting ⟨buffer, rfl, missing⟩)

/-- The packets of a handshake so far: the client's SYN was seen, and the server's
unless the session still waits for it or is closed. -/
structure Handshaking (past : List Update) (flow : Flow) : Prop where
  begun : flow.state ≠ .none
  opened : ∃ seen ∈ past,
    seen.direction = .toserver ∧ seen.Carries RTE_TCP_SYN_FLAG
  answered : flow.state = .synSent ∨ flow.state = .closed ∨
    ∃ seen ∈ past, seen.direction = .toclient ∧ seen.Carries RTE_TCP_SYN_FLAG

theorem Handshaking.anchored {stream : StreamConfig} {past : List Update}
    {flow after : Flow} {update : Update} (handshaking : Handshaking past flow)
    (answers : Answers flow update) (step : FlowStep stream flow update after)
    {side : Direction} (awaiting : Awaiting (flow.buffer side))
    (memory : HasMemory (after.buffer side)) :
    update.direction = side ∧ update.Carries RTE_TCP_SYN_FLAG := by
  cases step with
  | untouched header same =>
      have buffers : after.buffer side = flow.buffer side := by
        rw [Flow.buffer, same, Flow.buffer]
      rw [buffers] at memory
      exact absurd memory (not_hasMemory_of_awaiting awaiting)
  | session tcp session hdr sessionEq header afterEq step =>
      have begun := handshaking.begun
      rw [Flow.buffer_eq afterEq] at memory
      have before := awaiting
      rw [Flow.buffer_eq sessionEq] at before
      obtain ⟨reached, granted⟩ := step.setUp before memory
      rw [← Flow.state_eq sessionEq] at reached
      cases side with
      | toserver =>
          rcases nextState_synSent reached with ⟨fresh, _⟩ | ⟨sent, noSyn, noRst⟩
          · exact absurd fresh begun
          · rw [← Update.carries_iff header] at noSyn noRst
            rcases answers.toserver sent awaiting with bare | refused | syn | rst
            · rw [header] at bare
              cases bare
            · exact absurd (refused.symm.trans granted) (by decide)
            · exact absurd syn noSyn
            · exact absurd rst noRst
      | toclient =>
          rcases nextState_synRecv reached with ⟨fresh | sent, syn⟩ | ⟨received, noAck, noRst⟩
          · exact absurd fresh begun
          · rw [← Update.carries_iff header] at syn
            exact ⟨answers.answer sent syn, syn⟩
          · rw [← Update.carries_iff header] at noAck noRst
            rcases answers.toclient received awaiting with
              bare | refused | ack | rst | own
            · rw [header] at bare
              cases bare
            · exact absurd (refused.symm.trans granted) (by decide)
            · exact absurd ack noAck
            · exact absurd rst noRst
            · exact own

theorem Handshaking.step {stream : StreamConfig} {past : List Update}
    {flow after : Flow} {update : Update} (handshaking : Handshaking past flow)
    (answers : Answers flow update) (step : FlowStep stream flow update after) :
    Handshaking (past ++ [update]) after := by
  have opened : ∃ seen ∈ past ++ [update],
      seen.direction = .toserver ∧ seen.Carries RTE_TCP_SYN_FLAG := by
    obtain ⟨seen, member, syn⟩ := handshaking.opened
    exact ⟨seen, List.mem_append_left _ member, syn⟩
  have known : (∃ seen ∈ past,
      seen.direction = .toclient ∧ seen.Carries RTE_TCP_SYN_FLAG) →
      ∃ seen ∈ past ++ [update],
        seen.direction = .toclient ∧ seen.Carries RTE_TCP_SYN_FLAG := by
    rintro ⟨seen, member, syn⟩
    exact ⟨seen, List.mem_append_left _ member, syn⟩
  cases step with
  | untouched header same =>
      have state : after.state = flow.state := by
        rw [Flow.state, same, Flow.state]
      refine ⟨by rw [state]; exact handshaking.begun, opened, ?_⟩
      rw [state]
      exact handshaking.answered.imp_right (Or.imp_right known)
  | session tcp session hdr sessionEq header afterEq step =>
      have state : after.state =
          nextState flow.state hdr.tcpFlags update.direction := by
        rw [Flow.state_eq afterEq, step.state, Flow.state_eq sessionEq]
      refine ⟨by rw [state]; exact nextState_ne_none handshaking.begun, opened, ?_⟩
      rw [state]
      rcases handshaking.answered with sent | closed | answered
      · by_cases syn : update.Carries RTE_TCP_SYN_FLAG
        · exact Or.inr (Or.inr ⟨update, by simp, answers.answer sent syn, syn⟩)
        · rw [sent]
          rw [Update.carries_iff header] at syn
          rcases nextState_of_synSent update.direction syn with
            waits | closes
          · exact Or.inl waits
          · exact Or.inr (Or.inl closes)
      · rw [closed]
        exact Or.inr (Or.inl rfl)
      · exact Or.inr (Or.inr (known answered))

theorem Handshaking.law {stream : StreamConfig} {past : List Update}
    {flow after : Flow} {update : Update} (handshaking : Handshaking past flow)
    (answers : Answers flow update) (step : FlowStep stream flow update after) :
    HandshakeLaw past flow update after := by
  constructor
  · intro side awaiting memory
    exact handshaking.anchored answers step awaiting memory
  · intro before established side
    have received : flow.state = .synRecv := by
      cases step with
      | untouched header same =>
          rw [Flow.state, same] at established
          exact absurd established before
      | session tcp session hdr sessionEq header afterEq step =>
          rw [Flow.state_eq afterEq, step.state, ← Flow.state_eq sessionEq]
            at established
          exact (nextState_established established).resolve_right before
    cases side with
    | toserver =>
        obtain ⟨seen, member, syn⟩ := handshaking.opened
        exact ⟨seen, List.mem_append_left _ member, syn⟩
    | toclient =>
        rcases handshaking.answered with sent | closed | ⟨seen, member, syn⟩
        · rw [received] at sent
          cases sent
        · rw [received] at closed
          cases closed
        · exact ⟨seen, List.mem_append_left _ member, syn⟩

/-! ## Runs -/

/-- The first packet of a flow: a SYN of the client without an ACK. -/
structure Opens (update : Update) : Prop where
  tcp : update.pkt.ipProto = IPPROTO_TCP
  direction : update.direction = .toserver
  syn : update.Carries RTE_TCP_SYN_FLAG
  noAck : ¬update.Carries RTE_TCP_ACK_FLAG

instance (update : Update) : Decidable (Opens update) :=
  decidable_of_iff (update.pkt.ipProto = IPPROTO_TCP ∧ update.direction = .toserver ∧
      update.Carries RTE_TCP_SYN_FLAG ∧ ¬update.Carries RTE_TCP_ACK_FLAG)
    ⟨fun ⟨tcp, direction, syn, noAck⟩ => ⟨tcp, direction, syn, noAck⟩,
      fun ⟨tcp, direction, syn, noAck⟩ => ⟨tcp, direction, syn, noAck⟩⟩

/-- The opening SYN of a new flow. -/
theorem Opens.step {stream : StreamConfig} {flow after : Flow} {update : Update}
    (opens : Opens update) (fresh : flow.state = .none)
    (step : FlowStep stream flow update after) :
    HandshakeLaw [] flow update after ∧ Handshaking [update] after := by
  obtain ⟨hdr, header, syn⟩ := opens.syn
  have noAck := opens.noAck
  rw [Update.carries_iff header] at noAck
  have sent : nextState .none hdr.tcpFlags update.direction = .synSent := by
    simp [nextState, syn, noAck]
  cases step with
  | untouched bare same =>
      rw [header] at bare
      cases bare
  | session tcp session other sessionEq headerEq afterEq step =>
      rw [header] at headerEq
      cases headerEq
      have state : after.state = .synSent := by
        rw [Flow.state_eq afterEq, step.state, ← Flow.state_eq sessionEq, fresh, sent]
      refine ⟨⟨?_, ?_⟩, ?_⟩
      · intro side awaiting memory
        rw [Flow.buffer_eq afterEq] at memory
        rw [Flow.buffer_eq sessionEq] at awaiting
        have reached := (step.setUp awaiting memory).1
        rw [← Flow.state_eq sessionEq, fresh, sent] at reached
        cases side with
        | toserver => exact ⟨opens.direction, opens.syn⟩
        | toclient => cases reached
      · intro _ established
        rw [state] at established
        cases established
      · refine ⟨?_, ⟨update, by simp, opens.direction, opens.syn⟩, Or.inl state⟩
        rw [state]
        decide

/-- In every run that starts with the client's SYN and in which every packet
meets `Answers`, each buffer is set up by the SYN of its direction, and the
session is established by two SYNs. -/
theorem handshake_sound (config : FlowConfig) (stream : StreamConfig)
    (stats : ReassemblyStats) (alloc : FlowAllocation) (now : BitVec 64) (id : Nat)
    (hash : BitVec 32) (first : Update) (rest : List Update)
    (granted : alloc.session = true) (opens : Opens first)
    (answers : AlongRun config stream (fun _ flow update _ => Answers flow update) []
      (newFlow config alloc now id hash first.pkt, stats) (first :: rest)) :
    (∃ final, runUpdates config stream
        (newFlow config alloc now id hash first.pkt, stats) (first :: rest) =
          .ok final) ∧
      AlongRun config stream HandshakeLaw []
        (newFlow config alloc now id hash first.pkt, stats) (first :: rest) := by
  have hasSession :=
    newFlow_hasSession config alloc now id hash first.pkt opens.tcp granted
  have fresh : (newFlow config alloc now id hash first.pkt).state = .none := by
    rw [Flow.state, (newFlow_tcp config alloc now id hash first.pkt).2,
      if_pos opens.tcp, newSession, if_pos granted]
  obtain ⟨final, run, _⟩ := hasSession.runUpdates config stream (first :: rest)
  refine ⟨⟨final, run⟩, ?_⟩
  intro next step
  obtain ⟨reached, reachedRun, nextSession, flowStep⟩ :=
    hasSession.step config stream stats first
  rw [step] at reachedRun
  cases reachedRun
  obtain ⟨lawful, handshaking⟩ := opens.step fresh flowStep
  refine ⟨lawful, HasSession.alongRun Handshaking ?_ rest nextSession
    handshaking (answers next step).2⟩
  intro past flow update after _ holds here flowStep
  exact ⟨holds.law here flowStep, holds.step here flowStep⟩

/-- A three-way handshake after which the server repeats its SYN. -/
theorem handshake_sound_three_way :
    let config : FlowConfig := ⟨16, 16, 30, 3600⟩
    let first := tcpUpdate RTE_TCP_SYN_FLAG 100 .toserver
    let rest := [tcpUpdate (RTE_TCP_SYN_FLAG ||| RTE_TCP_ACK_FLAG) 500 .toclient,
      tcpUpdate RTE_TCP_ACK_FLAG 101 .toserver,
      tcpUpdate (RTE_TCP_SYN_FLAG ||| RTE_TCP_ACK_FLAG) 500 .toclient]
    (∃ final, runUpdates config .default
        (newFlow config {} 0 7 0 first.pkt, {}) (first :: rest) = .ok final) ∧
      AlongRun config .default HandshakeLaw []
        (newFlow config {} 0 7 0 first.pkt, {}) (first :: rest) := by
  intro config first rest
  apply handshake_sound config .default {} {} 0 7 0 first rest rfl (by decide)
  apply AlongRun.cons rfl (by decide)
  apply AlongRun.cons rfl (by decide)
  apply AlongRun.cons rfl (by decide)
  apply AlongRun.cons rfl (by decide)
  trivial

/-- The client repeats its SYN: the to-client buffer is set up by a to-server
packet, and its ACK establishes a session that no server has answered. -/
theorem handshake_answered_by_client :
    let config : FlowConfig := ⟨16, 16, 30, 3600⟩
    let first := tcpUpdate RTE_TCP_SYN_FLAG 100 .toserver
    let rest := [tcpUpdate RTE_TCP_SYN_FLAG 100 .toserver,
      tcpUpdate RTE_TCP_ACK_FLAG 101 .toserver]
    Opens first ∧
      (∃ final, runUpdates config .default
          (newFlow config {} 0 7 0 first.pkt, {}) (first :: rest) = .ok final ∧
        final.1.state = .established) ∧
      ¬AlongRun config .default HandshakeLaw []
        (newFlow config {} 0 7 0 first.pkt, {}) (first :: rest) := by
  intro config first rest
  refine ⟨by decide, ⟨_, rfl, by decide⟩, ?_⟩
  intro along
  obtain ⟨_, second⟩ := along _ rfl
  obtain ⟨lawful, _⟩ := second _ rfl
  exact absurd (lawful.anchored .toclient (by decide) (by decide)).1 (by decide)

end NetDefender.Flows
