import NetDefender.Flow.Model
import NetDefender.Lib.Crc

/-!
# Looking up a flow

What `flow_get` finds depends only on the keys of the flows: their endpoints,
protocol and stored hash.  No call changes a key, and no two flows of a bucket with
one hash belong to the same connection.  Whether the reply to a packet reaches the
packet's flow is then a question about the hash alone, which is computed from the
oriented tuple.
-/

namespace NetDefender.Flows

open NetDefender.Stream

/-! ## Keys -/

/-- The part of a flow that is immutable after its creation. -/
structure FlowKey where
  id : Nat
  srcAddr : FlowAddress
  dstAddr : FlowAddress
  srcPort : BitVec 16
  dstPort : BitVec 16
  proto : BitVec 8
  ipv4 : Bool
  ipv6 : Bool
  hash : BitVec 32
  deriving DecidableEq, Repr

def Flow.key (flow : Flow) : FlowKey where
  id := flow.id
  srcAddr := flow.srcAddr
  dstAddr := flow.dstAddr
  srcPort := flow.srcPort
  dstPort := flow.dstPort
  proto := flow.proto
  ipv4 := decide (flow.flags &&& FLOW_IPV4 ≠ 0)
  ipv6 := decide (flow.flags &&& FLOW_IPV6 ≠ 0)
  hash := flow.flowHash

/-- The key's endpoints are the packet's source and destination, in this order. -/
def FlowKey.Forward (key : FlowKey) (pkt : Packet) : Prop :=
  sameAddress pkt.ipVersion key.srcAddr pkt.srcAddr ∧
    sameAddress pkt.ipVersion key.dstAddr pkt.dstAddr ∧
    key.srcPort = pkt.srcPort ∧ key.dstPort = pkt.dstPort

/-- The key's endpoints are the packet's, in either order. -/
def FlowKey.Ends (key : FlowKey) (pkt : Packet) : Prop :=
  key.Forward pkt ∨
    sameAddress pkt.ipVersion key.srcAddr pkt.dstAddr ∧
      sameAddress pkt.ipVersion key.dstAddr pkt.srcAddr ∧
      key.srcPort = pkt.dstPort ∧ key.dstPort = pkt.srcPort

/-- `flow_match` on keys. -/
def FlowKey.Matches (key : FlowKey) (pkt : Packet) : Prop :=
  key.proto = pkt.ipProto ∧ (key.ipv4 → pkt.ipVersion = 4) ∧
    (key.ipv6 → pkt.ipVersion = 6) ∧ key.Ends pkt

theorem flowMatch_iff (flow : Flow) (pkt : Packet) :
    flowMatch flow pkt ↔ flow.key.Matches pkt := by
  simp only [flowMatch, FlowKey.Matches, FlowKey.Ends, FlowKey.Forward, Flow.key]
  split
  next other => simp [other]
  next =>
    split
    next => simp_all
    next =>
      split
      next => simp_all
      next => simp_all [and_assoc]

/-- The keys of a table, bucket by bucket. -/
def FlowTable.keys (table : FlowTable) : List (List FlowKey) :=
  table.buckets.map (List.map Flow.key)

/-- A packet with a decoded IP header, as every TCP or UDP packet has. -/
def Packet.IsIp (pkt : Packet) : Prop := pkt.ipVersion = 4 ∨ pkt.ipVersion = 6

/-- `reply` travels between the same endpoints in the other direction. -/
structure IsReply (pkt reply : Packet) : Prop where
  ipVersion : reply.ipVersion = pkt.ipVersion
  ipProto : reply.ipProto = pkt.ipProto
  srcAddr : reply.srcAddr = pkt.dstAddr
  dstAddr : reply.dstAddr = pkt.srcAddr
  srcPort : reply.srcPort = pkt.dstPort
  dstPort : reply.dstPort = pkt.srcPort

/-- A key matches a packet and its reply alike. -/
theorem FlowKey.matches_reply {pkt reply : Packet} (isReply : IsReply pkt reply)
    (key : FlowKey) : key.Matches reply ↔ key.Matches pkt := by
  simp only [Matches, Ends, Forward, isReply.ipVersion, isReply.ipProto, isReply.srcAddr,
    isReply.dstAddr, isReply.srcPort, isReply.dstPort]
  rw [or_comm]

instance (key : FlowKey) (pkt : Packet) : Decidable (key.Forward pkt) :=
  inferInstanceAs (Decidable (_ ∧ _))

instance (key : FlowKey) (pkt : Packet) : Decidable (key.Ends pkt) :=
  inferInstanceAs (Decidable (_ ∨ _))

instance (key : FlowKey) (pkt : Packet) : Decidable (key.Matches pkt) :=
  inferInstanceAs (Decidable (_ ∧ _))

theorem sameAddress_congr {version : BitVec 8} {left right : FlowAddress}
    (same : sameAddress version left right) (address : FlowAddress) :
    sameAddress version address left = sameAddress version address right := by
  simp only [sameAddress] at same ⊢
  split
  next four => simp_all
  next =>
    split
    next six => simp_all
    next => rfl

/-- Two packets that share the endpoints of one key share those of every key. -/
theorem FlowKey.ends_of_shared {key new : FlowKey} {pkt other : Packet}
    (version : other.ipVersion = pkt.ipVersion) (forward : new.Forward pkt)
    (shared : new.Ends other) (ends : key.Ends other) : key.Ends pkt := by
  obtain ⟨src, dst, srcPort, dstPort⟩ := forward
  simp only [Ends, Forward, version] at shared ends ⊢
  simp only [← sameAddress_congr src, ← sameAddress_congr dst, ← srcPort, ← dstPort]
  rcases shared with ⟨src, dst, srcPort, dstPort⟩ | ⟨src, dst, srcPort, dstPort⟩
  · simpa only [sameAddress_congr src, sameAddress_congr dst, srcPort, dstPort] using ends
  · rw [or_comm]
    simpa only [sameAddress_congr src, sameAddress_congr dst, srcPort, dstPort] using ends

section NewFlow

variable (config : FlowConfig) (alloc : FlowAllocation) (now : BitVec 64) (id : Nat)
variable (hash : BitVec 32) (pkt : Packet)

theorem newFlow_id : (newFlow config alloc now id hash pkt).id = id := by
  simp only [newFlow]
  split
  next => rfl
  next => split <;> rfl

theorem newFlow_key_id : (newFlow config alloc now id hash pkt).key.id = id :=
  newFlow_id config alloc now id hash pkt

theorem newFlow_hash : (newFlow config alloc now id hash pkt).key.hash = hash := by
  simp only [newFlow, Flow.key]
  split
  next => rfl
  next => split <;> rfl

variable {config : FlowConfig} {alloc : FlowAllocation} {now : BitVec 64} {id : Nat}
variable {hash : BitVec 32} {pkt other : Packet}

theorem newFlow_proto : (newFlow config alloc now id hash pkt).key.proto = pkt.ipProto := by
  simp only [newFlow, Flow.key]
  split
  next => rfl
  next => split <;> rfl

theorem newFlow_forward (isIp : pkt.IsIp) :
    (newFlow config alloc now id hash pkt).key.Forward pkt := by
  rcases isIp with version | version <;>
    simp [newFlow, Flow.key, FlowKey.Forward, version, sameAddress]

/-- A new flow only takes packets of the version of the first. -/
theorem newFlow_version (isIp : pkt.IsIp) :
    ((newFlow config alloc now id hash pkt).key.ipv4 → other.ipVersion = 4) ∧
      ((newFlow config alloc now id hash pkt).key.ipv6 → other.ipVersion = 6) ↔
    other.ipVersion = pkt.ipVersion := by
  rcases isIp with version | version <;>
    simp [newFlow, flowAlloc, Flow.key, version, FLOW_IPV4, FLOW_IPV6]

theorem newFlow_matches (isIp : pkt.IsIp) :
    (newFlow config alloc now id hash pkt).key.Matches pkt := by
  obtain ⟨four, six⟩ := (newFlow_version isIp).mpr rfl
  exact ⟨newFlow_proto, four, six, .inl (newFlow_forward isIp)⟩

/-- A key that matches a packet of a new flow matches the packet that created it:
both packets have the flow's endpoints. -/
theorem matches_of_newFlow {key : FlowKey} (isIp : pkt.IsIp)
    (new : (newFlow config alloc now id hash pkt).key.Matches other)
    (old : key.Matches other) : key.Matches pkt := by
  obtain ⟨newProto, newFour, newSix, shared⟩ := new
  obtain ⟨oldProto, oldFour, oldSix, ends⟩ := old
  have version := (newFlow_version isIp).mp ⟨newFour, newSix⟩
  refine ⟨?_, version ▸ oldFour, version ▸ oldSix,
    FlowKey.ends_of_shared version (newFlow_forward isIp) shared ends⟩
  rw [oldProto, ← newProto, newFlow_proto]

end NewFlow

/-! ## Buckets -/

/-- The search of `flow_get` on the keys of a bucket. -/
def lookup (hash : BitVec 32) (pkt : Packet) (bucket : List FlowKey) :
    Option FlowKey :=
  bucket.find? fun key => decide (key.hash = hash ∧ key.Matches pkt)

theorem takeFirst_lookup (hash : BitVec 32) (pkt : Packet) (bucket : List Flow) :
    match takeFirst (fun flow => flow.flowHash = hash && flowMatch flow pkt) bucket with
    | none => lookup hash pkt (bucket.map Flow.key) = none
    | some (flow, after) =>
        lookup hash pkt (bucket.map Flow.key) = some flow.key ∧
          after.map Flow.key = bucket.map Flow.key := by
  induction bucket with
  | nil => rfl
  | cons flow rest inductionHypothesis =>
      have accepts : (flow.flowHash = hash && flowMatch flow pkt) = true ↔
          flow.key.hash = hash ∧ flow.key.Matches pkt := by
        rw [← flowMatch_iff]
        simp [Flow.key]
      rw [takeFirst]
      simp only [lookup, List.map_cons]
      by_cases found : flow.key.hash = hash ∧ flow.key.Matches pkt
      · rw [if_pos (accepts.mpr found), List.find?_cons_of_pos (by simpa using found)]
        exact ⟨rfl, rfl⟩
      · have rejected : ¬(flow.flowHash = hash && flowMatch flow pkt) = true :=
          fun accepted => found (accepts.mp accepted)
        rw [if_neg rejected]
        have step : (flow.key :: rest.map Flow.key).find?
            (fun key => decide (key.hash = hash ∧ key.Matches pkt)) =
            lookup hash pkt (rest.map Flow.key) :=
          List.find?_cons_of_neg (by simpa using found)
        cases search : takeFirst (fun flow => flow.flowHash = hash && flowMatch flow pkt)
          rest with
        | none =>
            rw [search] at inductionHypothesis
            exact step.trans inductionHypothesis
        | some taken =>
            rw [search] at inductionHypothesis
            refine ⟨step.trans inductionHypothesis.1, ?_⟩
            rw [List.map_cons, inductionHypothesis.2]

/-- The bucket that a hash selects. -/
def bucketIdx (config : FlowConfig) (hash : BitVec 32) : Nat :=
  (hash &&& (config.hashSize - 1)).toNat

/-- The keys of the bucket that a hash selects. -/
def FlowTable.bucketKeys (table : FlowTable) (hash : BitVec 32) : List FlowKey :=
  table.keys.getD (bucketIdx table.config hash) []

theorem FlowTable.bucketKeys_eq (table : FlowTable) (hash : BitVec 32) :
    table.bucketKeys hash =
      (table.buckets.getD (bucketIdx table.config hash) []).map Flow.key := by
  rw [FlowTable.bucketKeys, FlowTable.keys]
  simp only [List.getD_eq_getElem?_getD, List.getElem?_map]
  cases table.buckets[bucketIdx table.config hash]? <;> rfl

/-- The outcome of `flow_get`. -/
inductive GetEffect (hash : BitVec 32) (pkt : Packet) (table : FlowTable) :
    Option Nat × FlowTable → Prop where
  | found {after : FlowTable} (key : FlowKey)
      (search : lookup hash pkt (table.bucketKeys hash) = some key)
      (keys : after.keys = table.keys) (config : after.config = table.config)
      (nextId : after.nextId = table.nextId) (stats : after.stats = table.stats) :
      GetEffect hash pkt table (some key.id, after)
  | refused (search : lookup hash pkt (table.bucketKeys hash) = none) :
      GetEffect hash pkt table (none, table)
  | created {after : FlowTable} (alloc : FlowAllocation) (now : BitVec 64)
      (search : lookup hash pkt (table.bucketKeys hash) = none)
      (keys : after.keys = table.keys.set (bucketIdx table.config hash)
        ((newFlow table.config alloc now table.nextId hash pkt).key ::
          table.bucketKeys hash))
      (config : after.config = table.config)
      (nextId : after.nextId = table.nextId + 1)
      (stats : after.stats.flowsCreated = table.stats.flowsCreated + 1) :
      GetEffect hash pkt table (some table.nextId, after)

theorem set_getD_self (buckets : List (List FlowKey)) (index : Nat) :
    buckets.set index (buckets.getD index []) = buckets := by
  by_cases inside : index < buckets.length
  · rw [List.getD_eq_getElem?_getD, List.getElem?_eq_getElem inside,
      Option.getD_some, List.set_getElem_self]
  · rw [List.set_eq_of_length_le (not_lt.mp inside)]

theorem flowGet_effect (rteHashCrc : List (BitVec 32) → BitVec 32)
    (alloc : FlowAllocation) (now : BitVec 64) (table : FlowTable) (pkt : Packet) :
    GetEffect (flowHashCalculate rteHashCrc pkt) pkt table
      (flowGet rteHashCrc alloc now table pkt) := by
  generalize hashEq : flowHashCalculate rteHashCrc pkt = hash
  have bucket := table.bucketKeys_eq hash
  have search := takeFirst_lookup hash pkt
    (table.buckets.getD (bucketIdx table.config hash) [])
  rw [← bucket] at search
  simp only [flowGet, hashEq]
  have index : (hash &&& (table.config.hashSize - 1)).toNat =
      bucketIdx table.config hash := rfl
  rw [index]
  split at search
  next missing =>
    rw [missing]
    dsimp only
    split
    next => exact .refused search
    next =>
      split
      next =>
        rw [newFlow_id]
        refine .created alloc now search ?_ rfl rfl rfl
        rw [FlowTable.keys, FlowTable.keys, List.map_set, List.map_cons, bucket]
      next => exact .refused search
  next taken after present =>
    rw [present]
    refine .found taken.key search.1 ?_ rfl rfl rfl
    rw [FlowTable.keys, List.map_set, search.2, FlowTable.bucketKeys]
    exact set_getD_self table.keys _

/-! ## The invariant -/

/-- Two keys of one hash that a single packet can match. -/
def Collide (left right : FlowKey) : Prop :=
  left.hash = right.hash ∧ ∃ pkt, left.Matches pkt ∧ right.Matches pkt

/-- The table holds a flow with this key. -/
def FlowTable.Holds (table : FlowTable) (key : FlowKey) : Prop :=
  ∃ (index : Nat) (bucket : List FlowKey),
    table.keys[index]? = some bucket ∧ key ∈ bucket

/-- The keys of a reachable table: every flow sits in the bucket of its hash, no
bucket holds a connection twice under one hash, and identities are never handed
out twice. -/
structure Keyed (table : FlowTable) : Prop where
  positive : table.config.hashSize ≠ 0
  size : table.keys.length = table.config.hashSize.toNat
  placed : ∀ (index : Nat) bucket, table.keys[index]? = some bucket →
    ∀ key ∈ bucket, bucketIdx table.config key.hash = index
  distinct : ∀ (index : Nat) bucket, table.keys[index]? = some bucket →
    bucket.Pairwise fun left right => ¬Collide left right
  fresh : ∀ key, table.Holds key → key.id < table.nextId
  ids : ∀ left right, table.Holds left → table.Holds right →
    left.id = right.id → left = right

/-- The table after a call that may remove flows but changes no key. -/
structure Thinned (table after : FlowTable) : Prop where
  config : after.config = table.config
  nextId : after.nextId = table.nextId
  size : after.keys.length = table.keys.length
  buckets : ∀ (index : Nat) bucket, after.keys[index]? = some bucket →
    ∃ original, table.keys[index]? = some original ∧ bucket.Sublist original

theorem Thinned.of_keys_eq {table after : FlowTable}
    (keys : after.keys = table.keys) (config : after.config = table.config)
    (nextId : after.nextId = table.nextId) : Thinned table after := by
  refine ⟨config, nextId, by rw [keys], ?_⟩
  intro index bucket found
  rw [keys] at found
  exact ⟨bucket, found, List.Sublist.refl _⟩

theorem Thinned.holds {table after : FlowTable} (thinned : Thinned table after)
    {key : FlowKey} (holds : after.Holds key) : table.Holds key := by
  obtain ⟨index, bucket, found, member⟩ := holds
  obtain ⟨original, foundOriginal, sublist⟩ := thinned.buckets index bucket found
  exact ⟨index, original, foundOriginal, sublist.subset member⟩

theorem bucketIdx_lt {config : FlowConfig} (positive : config.hashSize ≠ 0)
    (hash : BitVec 32) : bucketIdx config hash < config.hashSize.toNat := by
  have bound : (hash &&& (config.hashSize - 1)).toNat ≤
      (config.hashSize - 1).toNat := by
    rw [BitVec.toNat_and]
    exact Nat.and_le_right
  have size : (config.hashSize - 1).toNat < config.hashSize.toNat := by
    bv_omega
  exact lt_of_le_of_lt bound size

/-- Among keys that do not collide, the search finds the one that it accepts. -/
theorem lookup_of_mem {hash : BitVec 32} {pkt : Packet} {bucket : List FlowKey}
    {key : FlowKey} (distinct : bucket.Pairwise fun left right => ¬Collide left right)
    (member : key ∈ bucket) (sameHash : key.hash = hash)
    (accepted : key.Matches pkt) : lookup hash pkt bucket = some key := by
  induction bucket with
  | nil => cases member
  | cons first rest inductionHypothesis =>
      obtain ⟨before, restDistinct⟩ := List.pairwise_cons.mp distinct
      rw [lookup]
      cases member with
      | head => exact List.find?_cons_of_pos (by simp [sameHash, accepted])
      | tail _ member =>
          rw [List.find?_cons_of_neg]
          · exact inductionHypothesis restDistinct member
          · intro firstAccepted
            simp only [decide_eq_true_eq] at firstAccepted
            exact before key member ⟨firstAccepted.1.trans sameHash.symm, pkt,
              firstAccepted.2, accepted⟩

namespace Keyed

variable {table after : FlowTable}

theorem bucketKeys (keyed : Keyed table) (hash : BitVec 32) :
    table.keys[bucketIdx table.config hash]? = some (table.bucketKeys hash) := by
  have inside : bucketIdx table.config hash < table.keys.length := by
    rw [keyed.size]
    exact bucketIdx_lt keyed.positive hash
  rw [FlowTable.bucketKeys, List.getD_eq_getElem?_getD,
    List.getElem?_eq_getElem inside, Option.getD_some]

theorem thin (keyed : Keyed table) (thinned : Thinned table after) :
    Keyed after where
  positive := by
    rw [thinned.config]
    exact keyed.positive
  size := by
    rw [thinned.size, thinned.config]
    exact keyed.size
  placed := by
    intro index bucket found key member
    obtain ⟨original, foundOriginal, sublist⟩ := thinned.buckets index bucket found
    rw [thinned.config]
    exact keyed.placed index original foundOriginal key (sublist.subset member)
  distinct := by
    intro index bucket found
    obtain ⟨original, foundOriginal, sublist⟩ := thinned.buckets index bucket found
    exact (keyed.distinct index original foundOriginal).sublist sublist
  fresh := by
    intro key holds
    rw [thinned.nextId]
    exact keyed.fresh key (thinned.holds holds)
  ids := by
    intro left right holdsLeft holdsRight
    exact keyed.ids left right (thinned.holds holdsLeft) (thinned.holds holdsRight)

section Created

variable {hash : BitVec 32} {pkt : Packet} {alloc : FlowAllocation} {now : BitVec 64}

/-- A bucket of the table after a flow has been put in front of its bucket. -/
theorem created_bucket {new : FlowKey}
    (keys : after.keys = table.keys.set (bucketIdx table.config hash)
      (new :: table.bucketKeys hash)) {index : Nat} {bucket : List FlowKey}
    (found : after.keys[index]? = some bucket) :
    index = bucketIdx table.config hash ∧ bucket = new :: table.bucketKeys hash ∨
      table.keys[index]? = some bucket := by
  rw [keys, List.getElem?_set] at found
  split at found
  next same =>
    split at found
    next =>
      cases found
      exact Or.inl ⟨same.symm, rfl⟩
    next => cases found
  next => exact Or.inr found

theorem created_holds {new : FlowKey} (keyed : Keyed table)
    (keys : after.keys = table.keys.set (bucketIdx table.config hash)
      (new :: table.bucketKeys hash)) {key : FlowKey} (holds : after.Holds key) :
    key = new ∨ table.Holds key := by
  obtain ⟨index, bucket, found, member⟩ := holds
  rcases created_bucket keys found with ⟨_, rfl⟩ | old
  · rcases List.mem_cons.mp member with rfl | inBucket
    · exact Or.inl rfl
    · exact Or.inr ⟨_, _, keyed.bucketKeys hash, inBucket⟩
  · exact Or.inr ⟨index, bucket, old, member⟩

theorem create (keyed : Keyed table) (isIp : pkt.IsIp)
    (search : lookup hash pkt (table.bucketKeys hash) = none)
    (keys : after.keys = table.keys.set (bucketIdx table.config hash)
      ((newFlow table.config alloc now table.nextId hash pkt).key ::
        table.bucketKeys hash))
    (config : after.config = table.config)
    (nextId : after.nextId = table.nextId + 1) : Keyed after := by
  have newId : (newFlow table.config alloc now table.nextId hash pkt).key.id =
      table.nextId :=
    newFlow_key_id table.config alloc now table.nextId hash pkt
  have newHash : (newFlow table.config alloc now table.nextId hash pkt).key.hash =
      hash := newFlow_hash table.config alloc now table.nextId hash pkt
  constructor
  · rw [config]
    exact keyed.positive
  · rw [keys, List.length_set, config]
    exact keyed.size
  · intro index bucket found key member
    rw [config]
    rcases created_bucket keys found with ⟨same, rfl⟩ | old
    · rcases List.mem_cons.mp member with rfl | inBucket
      · rw [newHash, same]
      · rw [same]
        exact keyed.placed _ _ (keyed.bucketKeys hash) key inBucket
    · exact keyed.placed index bucket old key member
  · intro index bucket found
    rcases created_bucket keys found with ⟨_, rfl⟩ | old
    · refine List.pairwise_cons.mpr
        ⟨?_, keyed.distinct _ _ (keyed.bucketKeys hash)⟩
      rintro key member ⟨sameHash, other, newMatches, oldMatches⟩
      have accepted := matches_of_newFlow isIp newMatches oldMatches
      have missed := List.find?_eq_none.mp search key member
      simp only [decide_eq_true_eq] at missed
      exact missed ⟨sameHash.symm.trans newHash, accepted⟩
    · exact keyed.distinct index bucket old
  · intro key holds
    rw [nextId]
    rcases keyed.created_holds keys holds with rfl | old
    · rw [newId]
      exact Nat.lt_succ_self _
    · exact Nat.lt_succ_of_lt (keyed.fresh key old)
  · intro left right holdsLeft holdsRight same
    rcases keyed.created_holds keys holdsLeft with rfl | oldLeft
    · rcases keyed.created_holds keys holdsRight with rfl | oldRight
      · rfl
      · have small := keyed.fresh right oldRight
        rw [← same, newId] at small
        exact absurd small (lt_irrefl _)
    · rcases keyed.created_holds keys holdsRight with rfl | oldRight
      · have small := keyed.fresh left oldLeft
        rw [same, newId] at small
        exact absurd small (lt_irrefl _)
      · exact keyed.ids left right oldLeft oldRight same

end Created

end Keyed

/-! ## Calls that change no key -/

theorem or_and_of_apart {seen mask : BitVec 32} (apart : seen &&& mask = 0)
    (flags : BitVec 32) : (flags ||| seen) &&& mask = flags &&& mask := by
  rw [BitVec.and_or_distrib_right, apart]
  exact BitVec.or_zero

theorem countPacket_key (now : BitVec 64) (flow : Flow) (pkt : Packet)
    (direction : Direction) : (countPacket now flow pkt direction).key = flow.key := by
  have server4 : FLOW_TO_DST_SEEN &&& FLOW_IPV4 = 0 := by decide
  have server6 : FLOW_TO_DST_SEEN &&& FLOW_IPV6 = 0 := by decide
  have client4 : FLOW_TO_SRC_SEEN &&& FLOW_IPV4 = 0 := by decide
  have client6 : FLOW_TO_SRC_SEEN &&& FLOW_IPV6 = 0 := by decide
  cases direction with
  | toserver =>
      simp only [countPacket, Flow.key, or_and_of_apart server4,
        or_and_of_apart server6]
  | toclient =>
      simp only [countPacket, Flow.key, or_and_of_apart client4,
        or_and_of_apart client6]

theorem flowUpdate_key {config : FlowConfig} {stream : StreamConfig}
    {alloc : UpdateAllocation} {now : BitVec 64} {stats after : ReassemblyStats}
    {flow updated : Flow} {pkt : Packet} {direction : Direction}
    (update : flowUpdate config stream alloc now stats flow pkt direction =
      .ok (updated, after)) : updated.key = flow.key := by
  have counted := countPacket_key now flow pkt direction
  simp only [flowUpdate] at update
  split at update
  next =>
    split at update
    next =>
      split at update
      next => cases update
      next =>
        cases update
        exact counted
    next =>
      cases update
      exact counted
  next =>
    cases update
    exact counted

theorem flowRelease_key (flow : Flow) : (flowRelease flow).key = flow.key := by
  rw [flowRelease]
  split <;> rfl

/-- Changing a flow without touching its key. -/
theorem modify_keys {table : FlowTable} {id : Nat} {change : Flow → Flow}
    (keeps : ∀ bucket ∈ table.buckets, ∀ flow ∈ bucket, flow.id = id →
      (change flow).key = flow.key) : (table.modify id change).keys = table.keys := by
  rw [FlowTable.keys, FlowTable.modify, List.map_map, FlowTable.keys]
  apply List.map_congr_left
  intro bucket inTable
  simp only [Function.comp_apply, List.map_map]
  apply List.map_congr_left
  intro flow inBucket
  simp only [Function.comp_apply]
  split
  next same => exact keeps bucket inTable flow inBucket same
  next => rfl

theorem holds_of_mem {table : FlowTable} {bucket : List Flow} {flow : Flow}
    (inTable : bucket ∈ table.buckets) (inBucket : flow ∈ bucket) :
    table.Holds flow.key := by
  obtain ⟨index, found⟩ := List.mem_iff_getElem?.mp inTable
  refine ⟨index, bucket.map Flow.key, ?_, List.mem_map_of_mem inBucket⟩
  rw [FlowTable.keys, List.getElem?_map, found]
  rfl

theorem cleanup_thinned (now : BitVec 64) (table : FlowTable) :
    Thinned table (flowCleanupExpired now table).2 := by
  refine ⟨rfl, rfl, ?_, ?_⟩
  · simp [FlowTable.keys, flowCleanupExpired]
  · intro index bucket found
    simp only [FlowTable.keys, flowCleanupExpired, List.getElem?_map,
      Option.map_eq_some_iff] at found ⊢
    obtain ⟨thinned, ⟨original, foundOriginal, rfl⟩, rfl⟩ := found
    exact ⟨original.map Flow.key, ⟨original, foundOriginal, rfl⟩,
      List.filter_sublist.map _⟩

/-! ## Runs -/

/-- The packets that `flow_get` is called on have a decoded IP header. -/
def TableOp.OnIp : TableOp → Prop
  | .get _ _ pkt => pkt.IsIp
  | .update _ _ _ _ _ | .release _ | .cleanup _ => True

variable {rteHashCrc : List (BitVec 32) → BitVec 32}

/-- A call keeps every key or puts one new key into the table. -/
theorem Keyed.run_cases {table after : FlowTable} (keyed : Keyed table)
    {op : TableOp} (onIp : op.OnIp) (run : op.run rteHashCrc table = .ok after) :
    Thinned table after ∨
      (Keyed after ∧ after.nextId = table.nextId + 1 ∧ ∀ key, after.Holds key →
        key.id = table.nextId ∨ table.Holds key) := by
  cases op with
  | get alloc now pkt =>
      have effect := flowGet_effect rteHashCrc alloc now table pkt
      rw [TableOp.run] at run
      cases run
      generalize flowGet rteHashCrc alloc now table pkt = result at effect
      cases effect with
      | found key search keys config nextId stats =>
          exact Or.inl (Thinned.of_keys_eq keys config nextId)
      | refused search => exact Or.inl (Thinned.of_keys_eq rfl rfl rfl)
      | created alloc now search keys config nextId stats =>
          right
          refine ⟨keyed.create onIp search keys config nextId, nextId, ?_⟩
          intro key holds
          rcases keyed.created_holds keys holds with rfl | old
          · exact Or.inl (newFlow_key_id _ _ _ _ _ _)
          · exact Or.inr old
  | update alloc now id pkt direction =>
      left
      rw [TableOp.run] at run
      split at run
      next =>
        cases run
        exact Thinned.of_keys_eq rfl rfl rfl
      next flow found =>
        split at run
        next => cases run
        next updated reassembly update =>
          cases run
          refine Thinned.of_keys_eq (modify_keys ?_) rfl rfl
          intro bucket inTable other inBucket same
          rw [flowUpdate_key update]
          have member := List.mem_of_find?_eq_some found
          obtain ⟨home, homeInTable, inHome⟩ := List.mem_flatten.mp member
          have foundId : flow.id = id := by
            simpa using List.find?_some found
          exact keyed.ids _ _ (holds_of_mem homeInTable inHome)
            (holds_of_mem inTable inBucket) (foundId.trans same.symm)
  | release id =>
      left
      rw [TableOp.run] at run
      cases run
      refine Thinned.of_keys_eq (modify_keys ?_) rfl rfl
      intro bucket _ flow _ _
      exact flowRelease_key flow
  | cleanup now =>
      left
      rw [TableOp.run] at run
      cases run
      exact cleanup_thinned now table

theorem Keyed.run {table after : FlowTable} (keyed : Keyed table) {op : TableOp}
    (onIp : op.OnIp) (run : op.run rteHashCrc table = .ok after) : Keyed after := by
  rcases keyed.run_cases onIp run with thinned | ⟨created, _, _⟩
  · exact keyed.thin thinned
  · exact created

/-- The flow with identity `key.id`, as long as it stays in the table, keeps its
key. -/
structure Tracks (key : FlowKey) (table : FlowTable) : Prop where
  known : key.id < table.nextId
  only : ∀ other, table.Holds other → other.id = key.id → other = key

theorem Tracks.run {key : FlowKey} {table after : FlowTable}
    (tracks : Tracks key table) (keyed : Keyed table) {op : TableOp}
    (onIp : op.OnIp) (run : op.run rteHashCrc table = .ok after) :
    Tracks key after := by
  have known := tracks.known
  rcases keyed.run_cases onIp run with thinned | ⟨_, nextId, holds⟩
  · refine ⟨by rw [thinned.nextId]; exact known, ?_⟩
    intro other present same
    exact tracks.only other (thinned.holds present) same
  · refine ⟨by omega, ?_⟩
    intro other present same
    rcases holds other present with new | old
    · omega
    · exact tracks.only other old same

theorem Keyed.runTable (ops : List TableOp) : ∀ {table after : FlowTable},
    Keyed table → (∀ op ∈ ops, op.OnIp) → runTable rteHashCrc table ops = .ok after →
      Keyed after ∧ ∀ key, Tracks key table → Tracks key after := by
  induction ops with
  | nil =>
      intro table after keyed _ run
      cases run
      exact ⟨keyed, fun _ tracks => tracks⟩
  | cons op ops inductionHypothesis =>
      intro table after keyed onIp run
      rw [NetDefender.Flows.runTable, List.foldlM_cons] at run
      cases first : op.run rteHashCrc table with
      | error fault =>
          rw [first] at run
          cases run
      | ok middle =>
          rw [first] at run
          have here := onIp op List.mem_cons_self
          obtain ⟨keyedAfter, tracksAfter⟩ := inductionHypothesis
            (keyed.run here first)
            (fun other member => onIp other (List.mem_cons_of_mem _ member)) run
          refine ⟨keyedAfter, ?_⟩
          intro key tracks
          exact tracksAfter key (tracks.run keyed here first)

theorem flowInit_keyed {stream : StreamConfig} {reassembly : ReassemblyStats}
    {hashSize maxFlows : BitVec 32} {allocated : Bool} {table : FlowTable}
    (init : flowInit stream reassembly hashSize maxFlows allocated = some table) :
    Keyed table := by
  rw [flowInit] at init
  split at init
  next => cases init
  next valid =>
    split at init
    next =>
      cases init
      have keys : (List.replicate hashSize.toNat ([] : List Flow)).map
          (List.map Flow.key) = List.replicate hashSize.toNat [] := by
        rw [List.map_replicate, List.map_nil]
      have empty : ∀ (index : Nat) bucket,
          ((List.replicate hashSize.toNat ([] : List Flow)).map
            (List.map Flow.key))[index]? = some bucket → bucket = [] := by
        intro index bucket found
        rw [keys] at found
        exact (List.mem_replicate.mp (List.mem_of_getElem? found)).2
      refine ⟨fun zero => valid (Or.inl zero), ?_, ?_, ?_, ?_, ?_⟩
      · rw [FlowTable.keys, keys, List.length_replicate]
      · intro index bucket found key member
        rw [empty index bucket found] at member
        cases member
      · intro index bucket found
        rw [empty index bucket found]
        exact List.Pairwise.nil
      · rintro key ⟨index, bucket, found, member⟩
        rw [empty index bucket found] at member
        cases member
      · rintro left right ⟨index, bucket, found, member⟩
        rw [empty index bucket found] at member
        cases member
    next => cases init

/-! ## Replies -/

/-- The key that `flow_get` returns has the packet's hash and matches it. -/
theorem Keyed.get_tracks {table : FlowTable} (keyed : Keyed table)
    {alloc : FlowAllocation} {now : BitVec 64} {pkt : Packet} (isIp : pkt.IsIp)
    {id : Nat} (found : (flowGet rteHashCrc alloc now table pkt).1 = some id) :
    ∃ key, key.id = id ∧ key.hash = flowHashCalculate rteHashCrc pkt ∧
      key.Matches pkt ∧ Tracks key (flowGet rteHashCrc alloc now table pkt).2 := by
  have effect := flowGet_effect rteHashCrc alloc now table pkt
  generalize flowHashCalculate rteHashCrc pkt = hash at effect ⊢
  generalize flowGet rteHashCrc alloc now table pkt = result at effect found
  cases effect with
  | found key search keys config nextId stats =>
      cases found
      have accepted := List.find?_some search
      simp only [decide_eq_true_eq] at accepted
      have holds : table.Holds key :=
        ⟨_, _, keyed.bucketKeys hash, List.mem_of_find?_eq_some search⟩
      have thinned := Thinned.of_keys_eq keys config nextId
      refine ⟨key, rfl, accepted.1, accepted.2, ?_, ?_⟩
      · rw [nextId]
        exact keyed.fresh key holds
      · intro other present same
        exact keyed.ids other key (thinned.holds present) holds same
  | refused search => cases found
  | created alloc now search keys config nextId stats =>
      cases found
      refine ⟨(newFlow table.config alloc now table.nextId hash pkt).key,
        newFlow_key_id _ _ _ _ _ _, newFlow_hash _ _ _ _ _ _,
        newFlow_matches isIp, ?_, ?_⟩
      · rw [newFlow_key_id, nextId]
        exact Nat.lt_succ_self _
      · intro other present same
        rw [newFlow_key_id] at same
        rcases keyed.created_holds keys present with rfl | old
        · rfl
        · have small := keyed.fresh other old
          omega

/-- The search for a packet finds the flow that has its hash and matches it. -/
theorem Keyed.lookup_held {table : FlowTable} (keyed : Keyed table) {hash : BitVec 32}
    {pkt : Packet} {key : FlowKey} (holds : table.Holds key)
    (sameHash : key.hash = hash) (accepted : key.Matches pkt) :
    lookup hash pkt (table.bucketKeys hash) = some key := by
  obtain ⟨index, bucket, found, member⟩ := holds
  have home := keyed.placed index bucket found key member
  rw [sameHash] at home
  have bucketEq := keyed.bucketKeys hash
  rw [home, found] at bucketEq
  rw [← Option.some_inj.mp bucketEq]
  exact lookup_of_mem (keyed.distinct index bucket found) member sameHash accepted

/-- The reply to a packet finds the packet's flow exactly when both have the same
hash. -/
theorem Keyed.get_reply_iff {table : FlowTable} (keyed : Keyed table)
    {alloc : FlowAllocation} {now : BitVec 64} {pkt reply : Packet}
    (isReply : IsReply pkt reply) {key : FlowKey}
    (sameHash : key.hash = flowHashCalculate rteHashCrc pkt)
    (accepted : key.Matches pkt) (tracks : Tracks key table)
    (holds : table.Holds key) :
    ((flowGet rteHashCrc alloc now table reply).1 = some key.id ∧
        (flowGet rteHashCrc alloc now table reply).2.stats.flowsCreated =
          table.stats.flowsCreated) ↔
      flowHashCalculate rteHashCrc pkt = flowHashCalculate rteHashCrc reply := by
  have effect := flowGet_effect rteHashCrc alloc now table reply
  generalize flowHashCalculate rteHashCrc pkt = hash at sameHash ⊢
  generalize flowHashCalculate rteHashCrc reply = replyHash at effect ⊢
  generalize flowGet rteHashCrc alloc now table reply = result at effect ⊢
  have present : hash = replyHash →
      lookup replyHash reply (table.bucketKeys replyHash) = some key := by
    intro equal
    exact keyed.lookup_held holds (sameHash.trans equal)
      ((key.matches_reply isReply).mpr accepted)
  cases effect with
  | found found search keys config nextId stats =>
      dsimp only
      rw [stats, and_iff_left rfl, Option.some_inj]
      constructor
      · intro same
        have inTable : table.Holds found :=
          ⟨_, _, keyed.bucketKeys replyHash, List.mem_of_find?_eq_some search⟩
        have foundHash := List.find?_some search
        simp only [decide_eq_true_eq] at foundHash
        rw [← sameHash, ← foundHash.1, tracks.only found inTable same]
      · intro equal
        rw [present equal] at search
        cases search
        rfl
  | refused search =>
      constructor
      · intro same
        cases same.1
      · intro equal
        rw [present equal] at search
        cases search
  | created alloc now search keys config nextId stats =>
      constructor
      · rintro ⟨same, _⟩
        have known := tracks.known
        rw [← Option.some_inj.mp same] at known
        exact absurd known (lt_irrefl _)
      · intro equal
        rw [present equal] at search
        cases search

/-- CRC32-C of a list of words, seed 0: what `rte_hash_crc` computes. -/
def crc32c (words : List (BitVec 32)) : BitVec 32 := Crc.digest 0x82F63B78 0 words

/-- The words by which the hash inputs of a packet and of its reply differ: the
difference of the addresses, twice, the difference of the ports in both halves of a
word, and nothing for the protocol. -/
def orientation (pkt : Packet) : List (BitVec 32) :=
  let addresses :=
    if pkt.ipVersion = 4 then [pkt.srcAddr.word0 ^^^ pkt.dstAddr.word0]
    else Crc.difference pkt.srcAddr.words pkt.dstAddr.words
  let ports := (pkt.srcPort ^^^ pkt.dstPort).setWidth 32
  addresses ++ addresses ++ [ports <<< 16 ||| ports, 0]

theorem ports_difference (src dst : BitVec 16) :
    (src.setWidth 32 <<< 16 ||| dst.setWidth 32) ^^^
        (dst.setWidth 32 <<< 16 ||| src.setWidth 32) =
      (src ^^^ dst).setWidth 32 <<< 16 ||| (src ^^^ dst).setWidth 32 := by
  apply BitVec.eq_of_getLsbD_eq
  intro index small
  simp only [BitVec.getLsbD_xor, BitVec.getLsbD_or, BitVec.getLsbD_shiftLeft,
    BitVec.getLsbD_setWidth, small]
  by_cases low : index < 16
  · simp [low, Bool.xor_comm]
  · have shifted : index - 16 < 32 := by omega
    simp [low, shifted, BitVec.getLsbD_of_ge _ index (not_lt.mp low)]

theorem difference_reply {pkt reply : Packet} (isIp : pkt.IsIp)
    (isReply : IsReply pkt reply) :
    Crc.difference (hashInput pkt) (hashInput reply) = orientation pkt := by
  simp only [hashInput, orientation, isReply.ipVersion, isReply.ipProto,
    isReply.srcAddr, isReply.dstAddr, isReply.srcPort, isReply.dstPort]
  have protocol : pkt.ipProto.setWidth 32 ^^^ pkt.ipProto.setWidth 32 = 0 :=
    BitVec.xor_self
  rcases isIp with version | version
  · simp [version, Crc.difference, ports_difference, BitVec.xor_comm]
  · simp [version, Crc.difference, ports_difference, FlowAddress.words,
      BitVec.xor_comm]

theorem hashInput_length_reply {pkt reply : Packet} (isReply : IsReply pkt reply) :
    (hashInput pkt).length = (hashInput reply).length := by
  simp only [hashInput, isReply.ipVersion, List.length_append]
  split
  next => simp
  next =>
    split
    next => simp [FlowAddress.words]
    next => simp

/-- In every reachable table, the reply to a packet reaches the packet's flow and
creates none, exactly when the CRC of the orientation of the packet's tuple is
zero. -/
theorem reply_reaches_flow_iff (stream : StreamConfig)
    (reassembly : ReassemblyStats) (hashSize maxFlows : BitVec 32)
    (initial reached later : FlowTable)
    (init : flowInit stream reassembly hashSize maxFlows true = some initial)
    (earlier afterwards : List TableOp) (earlierOnIp : ∀ op ∈ earlier, op.OnIp)
    (afterwardsOnIp : ∀ op ∈ afterwards, op.OnIp)
    (reach : runTable crc32c initial earlier = .ok reached) (pkt reply : Packet)
    (isIp : pkt.IsIp) (isReply : IsReply pkt reply)
    (alloc replyAlloc : FlowAllocation) (now replyNow : BitVec 64) (id : Nat)
    (got : (flowGet crc32c alloc now reached pkt).1 = some id)
    (continues : runTable crc32c (flowGet crc32c alloc now reached pkt).2
      afterwards = .ok later) (present : later.find id ≠ none) :
    ((flowGet crc32c replyAlloc replyNow later reply).1 = some id ∧
        (flowGet crc32c replyAlloc replyNow later reply).2.stats.flowsCreated =
          later.stats.flowsCreated) ↔
      crc32c (orientation pkt) = 0 := by
  have keyed := (Keyed.runTable earlier (flowInit_keyed init) earlierOnIp reach).1
  have getRun : TableOp.run crc32c reached (.get alloc now pkt) =
      .ok (flowGet crc32c alloc now reached pkt).2 := rfl
  obtain ⟨key, rfl, sameHash, accepted, tracks⟩ := keyed.get_tracks isIp got
  have onIp : TableOp.OnIp (.get alloc now pkt) := isIp
  obtain ⟨laterKeyed, laterTracks⟩ := Keyed.runTable afterwards
    (keyed.run onIp getRun) afterwardsOnIp continues
  have stillTracks := laterTracks key tracks
  obtain ⟨flow, found⟩ := Option.ne_none_iff_exists'.mp present
  obtain ⟨bucket, inTable, inBucket⟩ :=
    List.mem_flatten.mp (List.mem_of_find?_eq_some found)
  have flowHolds := holds_of_mem inTable inBucket
  have sameId : flow.id = key.id := by
    simpa using List.find?_some found
  rw [stillTracks.only flow.key flowHolds sameId] at flowHolds
  rw [laterKeyed.get_reply_iff isReply sameHash accepted stillTracks flowHolds,
    flowHashCalculate, flowHashCalculate, ← difference_reply isIp isReply]
  exact Crc.digest_eq_iff 0x82F63B78 (hashInput_length_reply isReply)

/-- A packet from an endpoint to itself: the reply has the same tuple. -/
theorem reply_reaches_flow_iff_loopback :
    let pkt : Packet := ⟨4, 17, ⟨0x0100007F, 0, 0, 0⟩, ⟨0x0100007F, 0, 0, 0⟩, 53, 53,
      none, none, 0⟩
    let initial : FlowTable := ⟨⟨4, 8, 30, 3600⟩, .default, [[], [], [], []], {}, {}, 0⟩
    let later := (flowGet crc32c {} 0 initial pkt).2
    (flowGet crc32c {} 1 later pkt).1 = some 0 ∧
      (flowGet crc32c {} 1 later pkt).2.stats.flowsCreated =
        later.stats.flowsCreated := by
  intro pkt initial later
  exact (reply_reaches_flow_iff .default {} 4 8 initial initial later rfl [] []
    (by simp) (by simp) rfl pkt pkt (Or.inl rfl) ⟨rfl, rfl, rfl, rfl, rfl, rfl⟩ {} {}
    0 1 0 (by decide +kernel) rfl (by decide +kernel)).mpr (by decide +kernel)

/-- A TCP connection between two hosts: the reply creates a second flow. -/
theorem reply_creates_second_flow :
    let pkt : Packet := ⟨4, 6, ⟨0x0100000A, 0, 0, 0⟩, ⟨0x0200000A, 0, 0, 0⟩, 49152, 80,
      none, none, 0⟩
    let reply : Packet := ⟨4, 6, ⟨0x0200000A, 0, 0, 0⟩, ⟨0x0100000A, 0, 0, 0⟩, 80,
      49152, none, none, 0⟩
    ∃ initial, flowInit .default {} 4 8 true = some initial ∧ IsReply pkt reply ∧
      (flowGet crc32c {} 0 initial pkt).1 = some 0 ∧
      (flowGet crc32c {} 0 (flowGet crc32c {} 0 initial pkt).2 reply).1 = some 1 ∧
      (flowGet crc32c {} 0 (flowGet crc32c {} 0 initial pkt).2
        reply).2.stats.flowsCreated = 2 := by
  exact ⟨_, rfl, ⟨rfl, rfl, rfl, rfl, rfl, rfl⟩, by decide +kernel,
    by decide +kernel, by decide +kernel⟩

end NetDefender.Flows
