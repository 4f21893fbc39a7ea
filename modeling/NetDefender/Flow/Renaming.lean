import NetDefender.Flow.Counts
import NetDefender.Stream.Accounting

/-!
# Flows under other identities

The identity of a flow names it and does nothing else: the functions of the flow module do
the same to a flow under another identity, and in a table that has flows of other packets
besides.
-/

namespace NetDefender.Flows

open NetDefender.Stream NetDefender.Fallible

/-- The flow with its identity moved. -/
def Flow.shift (offset : Nat) (flow : Flow) : Flow := { flow with id := flow.id + offset }

/-! ## One flow -/

theorem Flow.shift_tcp (offset : Nat) (flow : Flow) : (flow.shift offset).tcp = flow.tcp := rfl

section Update

variable {config : FlowConfig} {stream : StreamConfig} {alloc : UpdateAllocation}
variable {now : BitVec 64} {stats other : ReassemblyStats} {flow : Flow} {pkt : Packet}
variable {direction : Direction} {offset : Nat}

theorem flowRelease_shift : flowRelease (flow.shift offset) = (flowRelease flow).shift offset := by
  by_cases held : flow.useCnt > 0
  · rw [flowRelease, flowRelease, if_pos held]
    exact if_pos held
  · rw [flowRelease, flowRelease, if_neg held]
    exact if_neg held

theorem countPacket_shift :
    countPacket now (flow.shift offset) pkt direction =
      (countPacket now flow pkt direction).shift offset := by
  cases direction <;> rfl

theorem initStreamBuffer_fst (stats other : ReassemblyStats) (allocated : Bool)
    (expected state : TcpState) (hdr : TcpHdr) (sb : Option StreamBuffer) :
    (initStreamBuffer stream allocated expected state hdr stats sb).1 =
      (initStreamBuffer stream allocated expected state hdr other sb).1 := by
  cases sb with
  | none => rfl
  | some buffer =>
      simp only [initStreamBuffer, streamBufferInit]
      split
      next => cases allocated <;> rfl
      next => rfl

theorem insertPayload_fst (alloc : Allocation) (state : TcpState) (hdr : TcpHdr)
    (sb : Option StreamBuffer) :
    Alike (fun done done' => done.1 = done'.1)
      (insertPayload stream alloc state hdr pkt stats sb)
      (insertPayload stream alloc state hdr pkt other sb) := by
  cases sb with
  | none => exact .ok rfl
  | some buffer =>
      simp only [insertPayload]
      split
      next =>
          have inserted := @streamBufferInsertSegment_sb stream alloc ⟨buffer, stats⟩
            ⟨buffer, other⟩ rfl hdr.sentSeq pkt.payload pkt.payloadLen
          generalize streamBufferInsertSegment stream alloc ⟨buffer, stats⟩ hdr.sentSeq
            pkt.payload pkt.payloadLen = left at inserted ⊢
          generalize streamBufferInsertSegment stream alloc ⟨buffer, other⟩ hdr.sentSeq
            pkt.payload pkt.payloadLen = right at inserted ⊢
          cases inserted with
          | error fault => exact .error fault
          | ok values => exact .ok (congrArg some values.2)
      next => exact .ok rfl

theorem updateSession_fst (tcp : TcpSession) (hdr : TcpHdr) :
    Alike (fun done done' => done.1 = done'.1)
      (updateSession stream alloc stats tcp hdr pkt direction)
      (updateSession stream alloc other tcp hdr pkt direction) := by
  rw [updateSession, updateSession]
  generalize nextState tcp.state hdr.tcpFlags direction = state
  have toserver := @initStreamBuffer_fst stream stats other alloc.toserverData .synSent state
    hdr tcp.toserverSb
  generalize initStreamBuffer stream alloc.toserverData .synSent state hdr stats
    tcp.toserverSb = left at toserver ⊢
  generalize initStreamBuffer stream alloc.toserverData .synSent state hdr other
    tcp.toserverSb = right at toserver ⊢
  obtain ⟨toserverSb, stats⟩ := left
  obtain ⟨_, other⟩ := right
  cases toserver
  have toclient := @initStreamBuffer_fst stream stats other alloc.toclientData .synRecv state
    hdr tcp.toclientSb
  dsimp only
  generalize initStreamBuffer stream alloc.toclientData .synRecv state hdr stats
    tcp.toclientSb = left at toclient ⊢
  generalize initStreamBuffer stream alloc.toclientData .synRecv state hdr other
    tcp.toclientSb = right at toclient ⊢
  obtain ⟨toclientSb, stats⟩ := left
  obtain ⟨_, other⟩ := right
  cases toclient
  cases direction with
  | toserver =>
      have inserted := @insertPayload_fst stream stats other pkt alloc.insert state hdr toserverSb
      dsimp only
      generalize insertPayload stream alloc.insert state hdr pkt stats toserverSb = left
        at inserted ⊢
      generalize insertPayload stream alloc.insert state hdr pkt other toserverSb = right
        at inserted ⊢
      cases inserted with
      | error fault => exact .error fault
      | ok same => exact .ok (by rw [same])
  | toclient =>
      have inserted := @insertPayload_fst stream stats other pkt alloc.insert state hdr toclientSb
      dsimp only
      generalize insertPayload stream alloc.insert state hdr pkt stats toclientSb = left
        at inserted ⊢
      generalize insertPayload stream alloc.insert state hdr pkt other toclientSb = right
        at inserted ⊢
      cases inserted with
      | error fault => exact .error fault
      | ok same => exact .ok (by rw [same])

/-- `flow_update` does the same to a flow under another identity, whatever the statistics
are. -/
theorem flowUpdate_shift :
    Alike (fun done done' => done'.1 = done.1.shift offset)
      (flowUpdate config stream alloc now stats flow pkt direction)
      (flowUpdate config stream alloc now other (flow.shift offset) pkt direction) := by
  rw [flowUpdate, flowUpdate, countPacket_shift]
  generalize countPacket now flow pkt direction = flow
  by_cases isTcp : flow.proto = IPPROTO_TCP
  · have shifted : (flow.shift offset).proto = IPPROTO_TCP := isTcp
    rw [if_pos isTcp, if_pos shifted, Flow.shift_tcp]
    cases flow.tcp with
    | none => exact .ok rfl
    | some tcp =>
        cases pkt.tcpHdr with
        | none => exact .ok rfl
        | some hdr =>
            have updated := @updateSession_fst stream alloc stats other pkt direction tcp hdr
            dsimp only
            generalize updateSession stream alloc stats tcp hdr pkt direction = left
              at updated ⊢
            generalize updateSession stream alloc other tcp hdr pkt direction = right
              at updated ⊢
            cases updated with
            | error fault => exact .error fault
            | ok same =>
                dsimp only
                rw [← same]
                exact .ok rfl
  · have shifted : (flow.shift offset).proto ≠ IPPROTO_TCP := isTcp
    rw [if_neg isTcp, if_neg shifted]
    exact .ok rfl

end Update

/-! ## Tables -/

/-- The flows of a table that are not older than an identity. -/
def since (offset : Nat) (bucket : List Flow) : List Flow :=
  bucket.filter fun flow => offset ≤ flow.id

/-- A table with all flows of another one under moved identities, and with older flows that
none of the packets looks for. -/
structure FlowTable.Beside (offset : Nat) (asked : Packet → Prop) (table other : FlowTable) :
    Prop where
  config : other.config = table.config
  stream : other.stream = table.stream
  buckets : other.buckets.map (since offset) = table.buckets.map (List.map (Flow.shift offset))
  older : ∀ flow ∈ other.flows, flow.id < offset → ∀ pkt, asked pkt → flowMatch flow pkt = false
  nextId : other.nextId = table.nextId + offset

section Tables

variable {offset : Nat} {asked : Packet → Prop} {table other : FlowTable}

theorem takeFirst_shift (test : Flow → Bool)
    (blind : ∀ flow : Flow, test (flow.shift offset) = test flow) (bucket : List Flow) :
    takeFirst test (bucket.map (Flow.shift offset)) =
      (takeFirst test bucket).map fun (taken, rest) =>
        (taken.shift offset, rest.map (Flow.shift offset)) := by
  induction bucket with
  | nil => rfl
  | cons flow rest inductionHypothesis =>
      rw [List.map_cons, takeFirst, takeFirst, blind]
      split
      next => rfl
      next =>
          rw [inductionHypothesis]
          cases takeFirst test rest <;> rfl

/-- The search does not see what it would not take. -/
theorem takeFirst_since (test : Flow → Bool) (bucket : List Flow)
    (older : ∀ flow ∈ bucket, flow.id < offset → test flow = false) :
    takeFirst test (since offset bucket) =
      (takeFirst test bucket).map fun (taken, rest) => (taken, since offset rest) := by
  induction bucket with
  | nil => rfl
  | cons flow rest inductionHypothesis =>
      have tail := inductionHypothesis fun next member =>
        older next (List.mem_cons_of_mem flow member)
      by_cases recent : offset ≤ flow.id
      · rw [since, List.filter_cons_of_pos (by simpa using recent), takeFirst, takeFirst]
        split
        next =>
            refine congrArg some (Prod.ext rfl ?_)
            exact (List.filter_cons_of_pos (by simpa using recent)).symm
        next =>
            rw [since] at tail
            rw [tail]
            cases takeFirst test rest with
            | none => rfl
            | some found =>
                refine congrArg some (Prod.ext rfl ?_)
                exact (List.filter_cons_of_pos (by simpa using recent)).symm
      · have skipped := older flow List.mem_cons_self (Nat.not_le.mp recent)
        rw [since, List.filter_cons_of_neg (by simpa using recent), ← since, tail, takeFirst,
          skipped]
        cases takeFirst test rest with
        | none => rfl
        | some found =>
            refine congrArg some (Prod.ext rfl ?_)
            exact (List.filter_cons_of_neg (by simpa using recent)).symm

theorem newFlow_shift (config : FlowConfig) (alloc : FlowAllocation) (now : BitVec 64) (id : Nat)
    (hash : BitVec 32) (pkt : Packet) :
    newFlow config alloc now (id + offset) hash pkt =
      (newFlow config alloc now id hash pkt).shift offset := by
  simp only [newFlow, flowAlloc]
  split
  next => rfl
  next => split <;> rfl

namespace FlowTable.Beside

theorem bucket (beside : Beside offset asked table other) (index : Nat) :
    since offset (other.buckets.getD index []) =
      (table.buckets.getD index []).map (Flow.shift offset) := by
  have same := congrArg (fun buckets => buckets[index]?) beside.buckets
  simp only [List.getElem?_map] at same
  rw [List.getD_eq_getElem?_getD, List.getD_eq_getElem?_getD]
  generalize table.buckets[index]? = left at same ⊢
  generalize other.buckets[index]? = right at same ⊢
  cases left with
  | none =>
      cases right with
      | none => rfl
      | some bucket' => cases same
  | some bucket =>
      cases right with
      | none => cases same
      | some bucket' => exact Option.some.inj same

/-- A flow in the bucket of an index is in the table. -/
theorem mem_flows {table : FlowTable} {index : Nat} {flow : Flow}
    (member : flow ∈ table.buckets.getD index []) : flow ∈ table.flows := by
  rw [List.getD_eq_getElem?_getD] at member
  cases found : table.buckets[index]? with
  | none =>
      rw [found] at member
      cases member
  | some bucket =>
      rw [found] at member
      exact List.mem_flatten_of_mem (List.mem_of_getElem? found) member

/-- A bucket of each table is replaced. -/
theorem set (beside : Beside offset asked table other) (index : Nat) {bucket bucket' : List Flow}
    (same : since offset bucket' = bucket.map (Flow.shift offset))
    (older : ∀ flow ∈ bucket', flow.id < offset → ∀ pkt, asked pkt → flowMatch flow pkt = false)
    (stats stats' : FlowStats) (created : Nat) :
    Beside offset asked
      { table with
        buckets := table.buckets.set index bucket, stats, nextId := table.nextId + created }
      { other with
        buckets := other.buckets.set index bucket'
        stats := stats'
        nextId := other.nextId + created } where
  config := beside.config
  stream := beside.stream
  buckets := by
    rw [List.map_set, List.map_set, beside.buckets, same]
  older := by
    intro flow member
    obtain ⟨entry, inTable, inBucket⟩ := List.mem_flatten.mp member
    rcases List.mem_or_eq_of_mem_set inTable with kept | rfl
    · exact beside.older flow (List.mem_flatten_of_mem kept inBucket)
    · exact older flow inBucket
  nextId := by
    have next := beside.nextId
    dsimp only
    omega

theorem get {rteHashCrc : List (BitVec 32) → BitVec 32} {alloc : FlowAllocation}
    {now : BitVec 64} {pkt : Packet} (beside : Beside offset asked table other)
    (asking : asked pkt) (room : table.stats.flowsActive < table.config.maxFlows.setWidth 64)
    (room' : other.stats.flowsActive < other.config.maxFlows.setWidth 64) :
    (flowGet rteHashCrc alloc now other pkt).1 =
        (flowGet rteHashCrc alloc now table pkt).1.map (· + offset) ∧
      Beside offset asked (flowGet rteHashCrc alloc now table pkt).2
        (flowGet rteHashCrc alloc now other pkt).2 := by
  rw [flowGet, flowGet]
  dsimp only
  generalize flowHashCalculate rteHashCrc pkt = hash
  have sameIndex : (hash &&& (other.config.hashSize - 1)).toNat =
      (hash &&& (table.config.hashSize - 1)).toNat := by
    rw [beside.config]
  rw [sameIndex]
  generalize (hash &&& (table.config.hashSize - 1)).toNat = index
  let test : Flow → Bool := fun flow => flow.flowHash = hash && flowMatch flow pkt
  have older : ∀ flow ∈ other.buckets.getD index [], flow.id < offset → test flow = false := by
    intro flow member old
    simp [test, beside.older flow (mem_flows member) old pkt asking]
  have search := takeFirst_since test _ older
  rw [beside.bucket, takeFirst_shift test fun _ => rfl] at search
  cases found : takeFirst test (table.buckets.getD index []) with
  | none =>
      cases found' : takeFirst test (other.buckets.getD index []) with
      | some taken' =>
          rw [found, found'] at search
          cases search
      | none =>
          dsimp only
          rw [if_neg (BitVec.not_le.mpr room), if_neg (BitVec.not_le.mpr room')]
          split
          next =>
              refine ⟨?_, beside.set index ?_ ?_ _ _ 1⟩
              · rw [newFlow_id, newFlow_id, beside.nextId]
                rfl
              · rw [beside.config, beside.nextId, newFlow_shift, since, List.filter_cons_of_pos,
                  ← since, beside.bucket, List.map_cons]
                exact decide_eq_true (Nat.le_add_left offset _)
              · intro flow member old
                rcases List.mem_cons.mp member with rfl | kept
                · have next := beside.nextId
                  rw [newFlow_id] at old
                  omega
                · exact beside.older flow (mem_flows kept) old
          next => exact ⟨rfl, beside⟩
  | some taken =>
      cases found' : takeFirst test (other.buckets.getD index []) with
      | none =>
          rw [found, found'] at search
          cases search
      | some taken' =>
          rw [found, found'] at search
          obtain ⟨taken, rest⟩ := taken
          obtain ⟨taken', rest'⟩ := taken'
          obtain ⟨first, second⟩ := Prod.mk.inj (Option.some.inj search)
          dsimp only
          refine ⟨congrArg (fun flow => some flow.id) first.symm,
            beside.set index second.symm ?_ table.stats other.stats 0⟩
          obtain ⟨front, flow, back, split, -, after⟩ := takeFirst_some found'
          intro flow' member old
          have present : ∃ before ∈ other.buckets.getD index [],
              before.id = flow'.id ∧ ∀ pkt, flowMatch flow' pkt = flowMatch before pkt := by
            rw [split]
            rw [after] at member
            rcases List.mem_append.mp member with inFront | inBack
            · exact ⟨flow', List.mem_append_left _ inFront, rfl, fun _ => rfl⟩
            · rcases List.mem_cons.mp inBack with rfl | inBack
              · exact ⟨flow, by simp, rfl, fun _ => rfl⟩
              · exact ⟨flow', by simp [inBack], rfl, fun _ => rfl⟩
          obtain ⟨before, inTable, sameId, sameMatch⟩ := present
          intro pkt asking
          rw [sameMatch]
          exact beside.older before (mem_flows inTable) (sameId ▸ old) pkt asking

theorem flows (beside : Beside offset asked table other) :
    since offset other.flows = table.flows.map (Flow.shift offset) := by
  rw [FlowTable.flows, FlowTable.flows, since, List.filter_flatten, List.map_flatten]
  exact congrArg List.flatten beside.buckets

theorem find (beside : Beside offset asked table other) (id : Nat) :
    other.find (id + offset) = (table.find id).map (Flow.shift offset) := by
  have recent : other.find (id + offset) =
      (since offset other.flows).find? fun flow => flow.id = id + offset := by
    rw [since, List.find?_filter, FlowTable.find]
    congr 1
    funext flow
    by_cases same : flow.id = id + offset
    · simp [same]
    · simp [same]
  have moved : ((fun flow : Flow => decide (flow.id = id + offset)) ∘ Flow.shift offset) =
      fun flow => decide (flow.id = id) := by
    funext flow
    simp [Flow.shift]
  rw [recent, beside.flows, List.find?_map, moved]
  rfl

/-- A flow is replaced in each table. -/
theorem modify (beside : Beside offset asked table other) (flow : Flow)
    (reassembly reassembly' : ReassemblyStats) :
    Beside offset asked { table.modify flow.id fun _ => flow with reassembly }
      { other.modify (flow.id + offset) fun _ => flow.shift offset with
        reassembly := reassembly' } where
  config := beside.config
  stream := beside.stream
  buckets := by
    have recent : (fun other : Flow => decide (offset ≤ other.id)) ∘
        changeFlow (flow.id + offset) (fun _ => flow.shift offset) =
          fun other => decide (offset ≤ other.id) := by
      funext other
      rw [Function.comp_apply, changeFlow]
      split
      next same => simp [Flow.shift, same]
      next => rfl
    have moved : changeFlow (flow.id + offset) (fun _ => flow.shift offset) ∘ Flow.shift offset =
        Flow.shift offset ∘ changeFlow flow.id fun _ => flow := by
      funext other
      simp only [Function.comp_apply, changeFlow, apply_ite (Flow.shift offset)]
      exact if_congr Nat.add_right_cancel_iff rfl rfl
    have same : ∀ bucket : List Flow,
        since offset (bucket.map (changeFlow (flow.id + offset) fun _ => flow.shift offset)) =
          (since offset bucket).map (changeFlow (flow.id + offset) fun _ => flow.shift offset) := by
      intro bucket
      rw [since, List.filter_map, recent]
      rfl
    calc (other.buckets.map (List.map
            (changeFlow (flow.id + offset) fun _ => flow.shift offset))).map (since offset)
        = (other.buckets.map (since offset)).map (List.map
            (changeFlow (flow.id + offset) fun _ => flow.shift offset)) := by
          rw [List.map_map, List.map_map]
          exact List.map_congr_left fun bucket _ => same bucket
      _ = (table.buckets.map (List.map (Flow.shift offset))).map (List.map
            (changeFlow (flow.id + offset) fun _ => flow.shift offset)) := by
          rw [beside.buckets]
      _ = (table.buckets.map (List.map (changeFlow flow.id fun _ => flow))).map
            (List.map (Flow.shift offset)) := by
          simp only [List.map_map, Function.comp_def]
          refine List.map_congr_left fun bucket _ => ?_
          exact List.map_congr_left fun other _ => congrFun moved other
  older := by
    intro other' member old
    have changed : other' ∈ other.flows.map
        (changeFlow (flow.id + offset) fun _ => flow.shift offset) := by
      rw [← FlowTable.modify_flows]
      exact member
    obtain ⟨before, present, rfl⟩ := List.mem_map.mp changed
    rw [changeFlow] at old ⊢
    split at old
    next same => exact absurd old (Nat.not_lt.mpr (Nat.le_add_left offset flow.id))
    next apart =>
        rw [if_neg apart]
        exact beside.older before present old
  nextId := beside.nextId

end FlowTable.Beside

end Tables

/-! ## Endpoints -/

/-- The two endpoints of a packet: IP version, address and port. -/
def Packet.endpoints (pkt : Packet) : List (BitVec 8 × FlowAddress × BitVec 16) :=
  [(pkt.tuple.ipVersion, pkt.tuple.srcAddr, pkt.tuple.srcPort),
    (pkt.tuple.ipVersion, pkt.tuple.dstAddr, pkt.tuple.dstPort)]

/-- A packet that is taken for one of a flow shares an endpoint with the packet that opened
the flow. -/
theorem FlowKey.Matches.shared {key : FlowKey} {opener pkt : Packet}
    (matched : key.Matches pkt) (isIp : opener.IsIp) (same : key.tuple = opener.tuple) :
    ∃ endpoint ∈ opener.endpoints, endpoint ∈ pkt.endpoints := by
  obtain ⟨id, srcAddr, dstAddr, srcPort, dstPort, proto, ipv4, ipv6, hash⟩ := key
  obtain ⟨-, four, six, ends⟩ := matched
  simp only [FlowKey.Ends, FlowKey.Forward] at ends
  refine ⟨_, List.mem_cons_self, ?_⟩
  rcases isIp with version | version
  · simp only [FlowKey.tuple, Packet.tuple, version, if_true, FlowTuple.mk.injEq] at same
    obtain ⟨ip, rfl, rfl, rfl, rfl, rfl⟩ := same
    have isFour : pkt.ipVersion = 4 := by
      cases ipv4 <;> cases ipv6 <;> simp_all
    simp only [sameAddress, isFour, if_true, decide_eq_true_eq] at ends
    simp only [Packet.endpoints, Packet.tuple, version, isFour, if_true, List.mem_cons,
      Prod.mk.injEq, FlowAddress.mk.injEq, List.not_mem_nil, or_false, and_true, true_and]
    rcases ends with ⟨src, -, srcPort, -⟩ | ⟨src, -, srcPort, -⟩
    · exact Or.inl ⟨src, srcPort⟩
    · exact Or.inr ⟨src, srcPort⟩
  · have other : (6 : BitVec 8) ≠ 4 := by decide
    simp only [FlowKey.tuple, Packet.tuple, version, if_neg other, if_true,
      FlowTuple.mk.injEq] at same
    obtain ⟨ip, rfl, rfl, rfl, rfl, rfl⟩ := same
    have isSix : pkt.ipVersion = 6 := by
      cases ipv4 <;> cases ipv6 <;> simp_all
    simp only [sameAddress, isSix, if_neg other, if_true, decide_eq_true_eq] at ends
    simp only [Packet.endpoints, Packet.tuple, version, isSix, if_neg other, if_true,
      List.mem_cons, Prod.mk.injEq, List.not_mem_nil, or_false, true_and]
    rcases ends with ⟨src, -, srcPort, -⟩ | ⟨src, -, srcPort, -⟩
    · exact Or.inl ⟨src, srcPort⟩
    · exact Or.inr ⟨src, srcPort⟩

end NetDefender.Flows
