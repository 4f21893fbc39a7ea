import NetDefender.Packet.Decode

/-!
# Reads and payload bounds of the decoder

Each layer checks that its fixed header fits into `pkt_len - offset`.  The check is
sound as long as `offset` has not passed `pkt_len`; the IPv4 header length is taken
from the packet and can push it there.  The payload runs to the end of the frame,
so it takes in link-layer padding.
-/

namespace NetDefender.Packets

/-- A header at a known offset that ends at or before `bound`. -/
def Fits (bound size : Nat) (header : Option Nat) : Prop :=
  ∃ start, header = some start ∧ start + size ≤ bound

/-- The fixed header of every flagged layer ends at or before `bound`. -/
structure HeadersFit (bound : Nat) (info : PacketInfo) : Prop where
  ipv4 : info.flags &&& PKT_DECODED_IPV4 ≠ 0 → Fits bound sizeofIpv4Hdr info.ipHdr
  ipv6 : info.flags &&& PKT_DECODED_IPV6 ≠ 0 → Fits bound sizeofIpv6Hdr info.ipHdr
  tcp : info.flags &&& PKT_DECODED_TCP ≠ 0 → Fits bound sizeofTcpHdr info.transportHdr
  udp : info.flags &&& PKT_DECODED_UDP ≠ 0 → Fits bound sizeofUdpHdr info.transportHdr
  icmp : info.flags &&& PKT_DECODED_ICMP ≠ 0 →
    Fits bound sizeofIcmpHdr info.transportHdr

/-- What a caller relies on: all reads are inside the frame, and after success the
flagged headers are too and the payload ends with the frame. -/
structure InBounds (pktLen : BitVec 32) (result : Int × Decoded) : Prop where
  reads : ∀ offset ∈ result.2.reads, offset < pktLen.toNat
  headers : result.1 = 0 → HeadersFit pktLen.toNat result.2.info
  payload : result.1 = 0 → ∀ start, result.2.info.payload = some start →
    start + result.2.info.payloadLen.toNat = pktLen.toNat

/-- The protocols that `decode_packet` has a transport decoder for. -/
def IsTransport (ipProto : BitVec 8) : Prop :=
  ipProto = IPPROTO_TCP ∨ ipProto = IPPROTO_UDP ∨ ipProto = IPPROTO_ICMP ∨
    ipProto = IPPROTO_ICMPV6

instance (ipProto : BitVec 8) : Decidable (IsTransport ipProto) :=
  inferInstanceAs (Decidable (_ ∨ _))

/-! ## The transport layer -/

/-- The state in which the transport layer is entered. -/
structure AtTransport (pktLen : BitVec 32) (decoded : Decoded) : Prop where
  reads : ∀ offset ∈ decoded.reads, offset < pktLen.toNat
  network :
    decoded.info.flags = PKT_DECODED_ETH ||| PKT_DECODED_IPV4 ∧
        Fits pktLen.toNat sizeofIpv4Hdr decoded.info.ipHdr ∨
      decoded.info.flags = PKT_DECODED_ETH ||| PKT_DECODED_IPV6 ∧
        Fits pktLen.toNat sizeofIpv6Hdr decoded.info.ipHdr
  payload : decoded.info.payload = none

section Transport

variable {memory : Memory} {pktLen offset : BitVec 32} {decoded : Decoded}

theorem setPayload_reads : (setPayload pktLen offset decoded).reads = decoded.reads := by
  rw [setPayload]
  split <;> rfl

theorem setPayload_headers {bound : Nat} :
    HeadersFit bound (setPayload pktLen offset decoded).info ↔
      HeadersFit bound decoded.info := by
  rw [setPayload]
  split
  next =>
    constructor
    · rintro ⟨ipv4, ipv6, tcp, udp, icmp⟩
      exact ⟨ipv4, ipv6, tcp, udp, icmp⟩
    · rintro ⟨ipv4, ipv6, tcp, udp, icmp⟩
      exact ⟨ipv4, ipv6, tcp, udp, icmp⟩
  next => rfl

theorem setPayload_ends (short : pktLen.toNat ≤ 65535)
    (none : decoded.info.payload = none) (start : Nat)
    (set : (setPayload pktLen offset decoded).info.payload = some start) :
    start + (setPayload pktLen offset decoded).info.payloadLen.toNat =
      pktLen.toNat := by
  rw [setPayload] at set ⊢
  split at set
  next before =>
    rw [if_pos before]
    cases set
    have order : offset.toNat < pktLen.toNat := before
    have rest : (pktLen - offset).toNat = pktLen.toNat - offset.toNat :=
      BitVec.toNat_sub_of_le (BitVec.le_of_lt before)
    dsimp only
    rw [BitVec.toNat_setWidth, rest]
    omega
  next =>
    rw [none] at set
    cases set

/-- A packet without a payload has payload length 0. -/
def PacketInfo.Sized (info : PacketInfo) : Prop :=
  info.payload = none → info.payloadLen = 0

theorem setPayload_sized (sized : decoded.info.Sized) :
    (setPayload pktLen offset decoded).info.Sized := by
  rw [setPayload]
  split
  next =>
    intro missing
    cases missing
  next => exact sized

theorem decodeTransport_sized (sized : decoded.info.Sized) :
    (decodeTransport memory pktLen offset decoded).2.info.Sized := by
  rw [decodeTransport, decodeTcp, decodeUdp, decodeIcmp]
  dsimp only
  split_ifs
  all_goals first
    | exact sized
    | exact setPayload_sized sized

theorem decodeNetwork_sized (sized : decoded.info.Sized) :
    (decodeNetwork memory pktLen offset decoded).2.info.Sized := by
  rw [decodeNetwork, decodeIpv4, decodeIpv6]
  dsimp only
  split_ifs
  all_goals first
    | exact sized
    | exact decodeTransport_sized sized

theorem decodePacket_sized : (decodePacket memory pktLen).2.info.Sized := by
  have unset : (Decoded.info {}).Sized := fun _ => rfl
  rw [decodePacket, decodeEthernet]
  split_ifs
  · exact unset
  · exact unset
  · exact decodeNetwork_sized unset

/-- A flag that is set says which transport protocol was decoded. -/
structure PacketInfo.Labelled (info : PacketInfo) : Prop where
  tcp : info.flags &&& PKT_DECODED_TCP ≠ 0 → info.ipProto = IPPROTO_TCP
  udp : info.flags &&& PKT_DECODED_UDP ≠ 0 → info.ipProto = IPPROTO_UDP

/-- Setting a flag that fits the protocol. -/
theorem PacketInfo.Labelled.set {info after : PacketInfo} {flag : BitVec 32}
    (labelled : info.Labelled) (flags : after.flags = info.flags ||| flag)
    (proto : after.ipProto = info.ipProto)
    (tcp : flag &&& PKT_DECODED_TCP = 0 ∨ info.ipProto = IPPROTO_TCP)
    (udp : flag &&& PKT_DECODED_UDP = 0 ∨ info.ipProto = IPPROTO_UDP) : after.Labelled := by
  constructor
  · intro set
    rw [proto]
    rcases tcp with apart | same
    · rw [flags, BitVec.and_or_distrib_right, apart] at set
      exact labelled.tcp (by simpa using set)
    · exact same
  · intro set
    rw [proto]
    rcases udp with apart | same
    · rw [flags, BitVec.and_or_distrib_right, apart] at set
      exact labelled.udp (by simpa using set)
    · exact same

theorem Decoded.fail_labelled (labelled : decoded.info.Labelled) :
    decoded.fail.info.Labelled :=
  labelled.set rfl rfl (Or.inl (by decide)) (Or.inl (by decide))

theorem setPayload_labelled (labelled : decoded.info.Labelled) :
    (setPayload pktLen offset decoded).info.Labelled := by
  rw [setPayload]
  split <;> exact ⟨labelled.tcp, labelled.udp⟩

theorem decodeTransport_labelled (labelled : decoded.info.Labelled) :
    (decodeTransport memory pktLen offset decoded).2.info.Labelled := by
  rw [decodeTransport, decodeTcp, decodeUdp, decodeIcmp]
  dsimp only
  split
  next isTcp =>
    have decodedTcp : (decoded.step [] { decoded.info with
        flags := decoded.info.flags ||| PKT_DECODED_TCP }).info.Labelled :=
      labelled.set rfl rfl (Or.inr isTcp) (Or.inl (by decide))
    split_ifs
    · exact Decoded.fail_labelled labelled
    · exact Decoded.fail_labelled ⟨decodedTcp.tcp, decodedTcp.udp⟩
    · exact setPayload_labelled ⟨decodedTcp.tcp, decodedTcp.udp⟩
  next =>
    split
    next isUdp =>
      split_ifs
      · exact Decoded.fail_labelled labelled
      · exact setPayload_labelled
          (labelled.set rfl rfl (Or.inl (by decide)) (Or.inr isUdp))
    next =>
      split_ifs
      · exact Decoded.fail_labelled labelled
      · exact setPayload_labelled
          (labelled.set rfl rfl (Or.inl (by decide)) (Or.inl (by decide)))
      · exact labelled

/-- No transport protocol was decoded yet. -/
def PacketInfo.Bare (info : PacketInfo) : Prop :=
  info.flags &&& PKT_DECODED_TCP = 0 ∧ info.flags &&& PKT_DECODED_UDP = 0

theorem PacketInfo.Bare.labelled {info : PacketInfo} (bare : info.Bare) : info.Labelled :=
  ⟨fun set => absurd bare.1 set, fun set => absurd bare.2 set⟩

theorem PacketInfo.Bare.set {info after : PacketInfo} {flag : BitVec 32} (bare : info.Bare)
    (flags : after.flags = info.flags ||| flag) (tcp : flag &&& PKT_DECODED_TCP = 0)
    (udp : flag &&& PKT_DECODED_UDP = 0) : after.Bare := by
  rw [PacketInfo.Bare, flags, BitVec.and_or_distrib_right, BitVec.and_or_distrib_right, tcp,
    udp, bare.1, bare.2]
  exact ⟨rfl, rfl⟩

theorem decodeNetwork_labelled (bare : decoded.info.Bare) :
    (decodeNetwork memory pktLen offset decoded).2.info.Labelled := by
  have v4 : ∀ {after : Decoded},
      after.info.flags = decoded.info.flags ||| PKT_DECODED_IPV4 → after.info.Bare :=
    fun flags => bare.set flags (by decide) (by decide)
  have v6 : ∀ {after : Decoded},
      after.info.flags = decoded.info.flags ||| PKT_DECODED_IPV6 → after.info.Bare :=
    fun flags => bare.set flags (by decide) (by decide)
  rw [decodeNetwork, decodeIpv4, decodeIpv6]
  dsimp only
  split_ifs
  · exact Decoded.fail_labelled bare.labelled
  · exact Decoded.fail_labelled (v4 rfl).labelled
  · exact decodeTransport_labelled (v4 rfl).labelled
  · exact Decoded.fail_labelled bare.labelled
  · exact decodeTransport_labelled (v6 rfl).labelled
  · exact bare.labelled

/-- Whatever is decoded, a transport flag is that of the protocol field. -/
theorem decodePacket_labelled : (decodePacket memory pktLen).2.info.Labelled := by
  have unset : (Decoded.info {}).Bare := ⟨rfl, rfl⟩
  rw [decodePacket, decodeEthernet]
  split_ifs
  · exact unset.labelled
  · exact Decoded.fail_labelled unset.labelled
  · exact decodeNetwork_labelled (unset.set rfl (by decide) (by decide))

theorem setPayload_version :
    (setPayload pktLen offset decoded).info.ipVersion = decoded.info.ipVersion := by
  rw [setPayload]
  split <;> rfl

theorem decodeTransport_version :
    (decodeTransport memory pktLen offset decoded).2.info.ipVersion =
      decoded.info.ipVersion := by
  rw [decodeTransport, decodeTcp, decodeUdp, decodeIcmp]
  dsimp only
  split_ifs
  all_goals first
    | rfl
    | exact setPayload_version

/-- A transport protocol is decoded in a packet of IPv4 or of IPv6. -/
theorem decodePacket_version :
    (decodePacket memory pktLen).2.info.Bare ∨
      (decodePacket memory pktLen).2.info.ipVersion = 4 ∨
        (decodePacket memory pktLen).2.info.ipVersion = 6 := by
  have unset : (Decoded.info {}).Bare := ⟨rfl, rfl⟩
  have ether : PKT_DECODED_ETH &&& PKT_DECODED_TCP = 0 ∧
      PKT_DECODED_ETH &&& PKT_DECODED_UDP = 0 := ⟨by decide, by decide⟩
  rw [decodePacket, decodeEthernet]
  split_ifs
  · exact Or.inl unset
  · exact Or.inl (unset.set rfl (by decide) (by decide))
  · dsimp only
    rw [decodeNetwork, decodeIpv4, decodeIpv6]
    dsimp only
    split_ifs
    · exact Or.inl ((unset.set rfl ether.1 ether.2).set rfl (by decide) (by decide))
    · exact Or.inr (Or.inl rfl)
    · exact Or.inr (Or.inl decodeTransport_version)
    · exact Or.inl ((unset.set rfl ether.1 ether.2).set rfl (by decide) (by decide))
    · exact Or.inr (Or.inr decodeTransport_version)
    · exact Or.inl (unset.set rfl ether.1 ether.2)

/-- The transport layers. -/
inductive Layer where
  | tcp
  | udp
  | icmp
  deriving DecidableEq, Repr

/-- The flag that a layer sets. -/
def Layer.flag : Layer → BitVec 32
  | .tcp => PKT_DECODED_TCP
  | .udp => PKT_DECODED_UDP
  | .icmp => PKT_DECODED_ICMP

/-- The size of a layer's fixed header. -/
def Layer.size : Layer → Nat
  | .tcp => sizeofTcpHdr
  | .udp => sizeofUdpHdr
  | .icmp => sizeofIcmpHdr

/-- A layer has read its fixed header at `start`; the ICMP layer reads nothing. -/
structure LayerReads (layer : Layer) (start : Nat) (reads : List Nat) : Prop where
  inside : ∀ offset ∈ reads, start ≤ offset ∧ offset < start + layer.size
  touches : layer ≠ .icmp → start ∈ reads

/-- A layer has filled in its fields. -/
structure LayerInfo (layer : Layer) (start : Nat) (before after : PacketInfo) :
    Prop where
  flags : after.flags = before.flags ||| layer.flag
  ipHdr : after.ipHdr = before.ipHdr
  transportHdr : after.transportHdr = some start
  payload : after.payload = before.payload

/-- The outcome of the transport layer. -/
inductive TransportEffect (pktLen offset : BitVec 32) (decoded : Decoded) :
    Int × Decoded → Prop where
  | skipped (unknown : ¬IsTransport decoded.info.ipProto) :
      TransportEffect pktLen offset decoded (0, decoded)
  | short (layer : Layer) (known : IsTransport decoded.info.ipProto)
      (tooShort : (pktLen - offset).toNat < layer.size) :
      TransportEffect pktLen offset decoded (-1, decoded.fail)
  | invalid (reads : List Nat) (info : PacketInfo)
      (known : IsTransport decoded.info.ipProto)
      (room : Layer.tcp.size ≤ (pktLen - offset).toNat)
      (layerReads : LayerReads .tcp offset.toNat reads) :
      TransportEffect pktLen offset decoded (-1, (decoded.step reads info).fail)
  | decoded (layer : Layer) (next : BitVec 32) (reads : List Nat)
      (info : PacketInfo) (known : IsTransport decoded.info.ipProto)
      (room : layer.size ≤ (pktLen - offset).toNat)
      (layerReads : LayerReads layer offset.toNat reads)
      (layerInfo : LayerInfo layer offset.toNat decoded.info info) :
      TransportEffect pktLen offset decoded
        (0, setPayload pktLen next (decoded.step reads info))

theorem decodeTransport_effect (memory : Memory) (pktLen offset : BitVec 32)
    (decoded : Decoded) :
    TransportEffect pktLen offset decoded
      (decodeTransport memory pktLen offset decoded) := by
  have tcpReads : LayerReads .tcp offset.toNat
      [offset.toNat, offset.toNat + 1, offset.toNat + 2, offset.toNat + 3,
        offset.toNat + 12] := by
    constructor
    · simp [Layer.size, sizeofTcpHdr]
    · simp
  have udpReads : LayerReads .udp offset.toNat
      [offset.toNat, offset.toNat + 1, offset.toNat + 2, offset.toNat + 3] := by
    constructor
    · simp [Layer.size, sizeofUdpHdr]
    · simp
  have icmpReads : LayerReads .icmp offset.toNat [] := ⟨by simp, by simp⟩
  rw [decodeTransport]
  dsimp only
  split
  next isTcp =>
    have known : IsTransport decoded.info.ipProto := Or.inl isTcp
    rw [decodeTcp]
    by_cases tooShort : (pktLen - offset).toNat < sizeofTcpHdr
    · rw [if_pos tooShort]
      exact .short .tcp known tooShort
    · rw [if_neg tooShort]
      dsimp only
      by_cases invalid : tcpHdrLenAt memory offset.toNat < sizeofTcpHdr
      · rw [if_pos invalid]
        exact .invalid _ _ known (not_lt.mp tooShort) tcpReads
      · rw [if_neg invalid]
        exact .decoded .tcp _ _ _ known (not_lt.mp tooShort) tcpReads ⟨rfl, rfl, rfl, rfl⟩
  next notTcp =>
    split
    next isUdp =>
      have known : IsTransport decoded.info.ipProto := Or.inr (Or.inl isUdp)
      rw [decodeUdp]
      by_cases tooShort : (pktLen - offset).toNat < sizeofUdpHdr
      · rw [if_pos tooShort]
        exact .short .udp known tooShort
      · rw [if_neg tooShort]
        exact .decoded .udp _ _ _ known (not_lt.mp tooShort) udpReads ⟨rfl, rfl, rfl, rfl⟩
    next notUdp =>
      split
      next isIcmp =>
        have known : IsTransport decoded.info.ipProto := Or.inr (Or.inr isIcmp)
        rw [decodeIcmp]
        by_cases tooShort : (pktLen - offset).toNat < sizeofIcmpHdr
        · rw [if_pos tooShort]
          exact .short .icmp known tooShort
        · rw [if_neg tooShort]
          exact .decoded .icmp _ _ _ known (not_lt.mp tooShort) icmpReads
            ⟨rfl, rfl, rfl, rfl⟩
      next notIcmp =>
        apply TransportEffect.skipped
        rintro (tcp | udp | icmp)
        · exact notTcp tcp
        · exact notUdp udp
        · exact notIcmp icmp

theorem AtTransport.headersFit (atTransport : AtTransport pktLen decoded) :
    HeadersFit pktLen.toNat decoded.info := by
  rcases atTransport.network with ⟨flags, fits⟩ | ⟨flags, fits⟩
  · constructor <;> rw [flags] <;> intro set
    · exact fits
    all_goals exact absurd rfl set
  · constructor <;> rw [flags] <;> intro set
    · exact absurd rfl set
    · exact fits
    all_goals exact absurd rfl set

/-- Setting a transport flag next to the network flags. -/
theorem AtTransport.layerHeadersFit (atTransport : AtTransport pktLen decoded)
    {layer : Layer} {start : Nat} {info : PacketInfo}
    (layerInfo : LayerInfo layer start decoded.info info)
    (inside : start + layer.size ≤ pktLen.toNat) : HeadersFit pktLen.toNat info := by
  have fits : Fits pktLen.toNat layer.size info.transportHdr :=
    ⟨start, layerInfo.transportHdr, inside⟩
  rcases atTransport.network with ⟨flags, ipFits⟩ | ⟨flags, ipFits⟩
  · rw [← layerInfo.ipHdr] at ipFits
    cases layer <;> constructor <;> rw [layerInfo.flags, flags] <;> intro set <;>
      first
      | exact ipFits
      | exact fits
      | exact absurd rfl set
  · rw [← layerInfo.ipHdr] at ipFits
    cases layer <;> constructor <;> rw [layerInfo.flags, flags] <;> intro set <;>
      first
      | exact ipFits
      | exact fits
      | exact absurd rfl set

/-- Entered at or before the end of the frame, or for an unknown protocol, the
transport layer stays inside it. -/
theorem TransportEffect.inBounds {result : Int × Decoded}
    (effect : TransportEffect pktLen offset decoded result)
    (atTransport : AtTransport pktLen decoded) (short : pktLen.toNat ≤ 65535)
    (before : IsTransport decoded.info.ipProto → offset ≤ pktLen) :
    InBounds pktLen result := by
  have rest : IsTransport decoded.info.ipProto →
      offset.toNat + (pktLen - offset).toNat = pktLen.toNat := by
    intro known
    have order : offset.toNat ≤ pktLen.toNat := before known
    rw [BitVec.toNat_sub_of_le (before known)]
    omega
  have extended : ∀ {layer : Layer} {reads : List Nat} (info : PacketInfo),
      IsTransport decoded.info.ipProto → layer.size ≤ (pktLen - offset).toNat →
      LayerReads layer offset.toNat reads →
      ∀ read ∈ (decoded.step reads info).reads, read < pktLen.toNat := by
    intro layer reads info known room layerReads read member
    rw [Decoded.step, List.mem_append] at member
    rcases member with old | new
    · exact atTransport.reads read old
    · have bounds := layerReads.inside read new
      have total := rest known
      omega
  cases effect with
  | skipped unknown =>
      refine ⟨atTransport.reads, fun _ => atTransport.headersFit, ?_⟩
      intro _ start set
      rw [atTransport.payload] at set
      cases set
  | short layer known tooShort =>
      exact ⟨atTransport.reads, fun failed => (by cases failed),
        fun failed => (by cases failed)⟩
  | invalid reads info known room layerReads =>
      exact ⟨extended info known room layerReads,
        fun failed => (by cases failed), fun failed => (by cases failed)⟩
  | decoded layer next reads info known room layerReads layerInfo =>
      have inside : offset.toNat + layer.size ≤ pktLen.toNat := by
        have total := rest known
        omega
      refine ⟨?_, fun _ => ?_, fun _ => ?_⟩
      · rw [setPayload_reads]
        exact extended info known room layerReads
      · rw [setPayload_headers]
        exact atTransport.layerHeadersFit layerInfo inside
      · exact setPayload_ends short (layerInfo.payload.trans atTransport.payload)

/-- Entered past the end of the frame, the transport layer leaves it. -/
theorem TransportEffect.not_inBounds {result : Int × Decoded}
    (effect : TransportEffect pktLen offset decoded result)
    (known : IsTransport decoded.info.ipProto)
    (beyond : pktLen.toNat < offset.toNat)
    (near : offset.toNat < 2 ^ 31) : ¬InBounds pktLen result := by
  have wrapped : 2 ^ 31 ≤ (pktLen - offset).toNat := by
    rw [BitVec.toNat_sub]
    omega
  have outside : ∀ {layer : Layer} {reads : List Nat} (info : PacketInfo),
      LayerReads layer offset.toNat reads → layer ≠ .icmp →
      ¬∀ read ∈ (decoded.step reads info).reads, read < pktLen.toNat := by
    intro layer reads info layerReads notIcmp inside
    have first := inside offset.toNat
      (List.mem_append_right _ (layerReads.touches notIcmp))
    omega
  intro inBounds
  cases effect with
  | skipped unknown => exact unknown known
  | short layer _ tooShort =>
      have small : layer.size ≤ 20 := by cases layer <;> decide
      omega
  | invalid reads info _ room layerReads =>
      exact outside info layerReads (by decide) inBounds.reads
  | decoded layer next reads info _ room layerReads layerInfo =>
      by_cases icmp : layer = .icmp
      · have headers := inBounds.headers rfl
        rw [setPayload_headers] at headers
        have set : info.flags &&& PKT_DECODED_ICMP ≠ 0 := by
          rw [layerInfo.flags, icmp]
          intro clear
          have bit := congrArg (fun word => word.getLsbD 5) clear
          simp [Layer.flag, PKT_DECODED_ICMP] at bit
        obtain ⟨start, startEq, fits⟩ := headers.icmp set
        rw [Decoded.step, layerInfo.transportHdr] at startEq
        cases startEq
        omega
      · have reads := inBounds.reads
        rw [setPayload_reads] at reads
        exact outside info layerReads icmp reads

end Transport

/-! ## The network layer -/

/-- An IPv4 frame whose header length points past the end of the frame, of a
protocol that has a transport decoder. -/
structure HeaderPastEnd (memory : Memory) (pktLen : BitVec 32) : Prop where
  etherType : wordAt memory 12 = RTE_ETHER_TYPE_IPV4
  room : 34 ≤ pktLen.toNat
  ihl : 20 ≤ ihlAt memory 14
  pastEnd : pktLen.toNat < 14 + ihlAt memory 14
  ipProto : IsTransport (byteAt memory 23)

theorem ihlAt_le (memory : Memory) (start : Nat) : ihlAt memory start ≤ 60 := by
  have bound : (byteAt memory start &&& 0x0F).toNat ≤ 15 := by
    rw [BitVec.toNat_and]
    exact Nat.and_le_right
  rw [ihlAt]
  omega

/-- A decoder that fails has only to keep its reads inside the frame. -/
theorem inBounds_of_failed {pktLen : BitVec 32} {decoded : Decoded}
    (reads : ∀ offset ∈ decoded.reads, offset < pktLen.toNat) :
    InBounds pktLen (-1, decoded) :=
  ⟨reads, fun failed => (by cases failed), fun failed => (by cases failed)⟩

/-- What the Ethernet layer leaves for the network layer. -/
def afterEthernet (memory : Memory) : Decoded :=
  Decoded.step {} [12, 13]
    { ethHdr := some 0
      etherType := wordAt memory 12
      flags := PKT_DECODED_ETH }

theorem decodePacket_eq (memory : Memory) (pktLen : BitVec 32) :
    (pktLen.toNat < 14 ∧ InBounds pktLen (decodePacket memory pktLen)) ∨
      (14 ≤ pktLen.toNat ∧ decodePacket memory pktLen =
        decodeNetwork memory pktLen 14 (afterEthernet memory)) := by
  rw [decodePacket]
  split
  next empty =>
    left
    rw [empty]
    exact ⟨by decide, inBounds_of_failed (by simp)⟩
  next =>
    rw [decodeEthernet]
    by_cases tooShort : pktLen.toNat < sizeofEtherHdr
    · left
      rw [if_pos tooShort]
      exact ⟨tooShort, inBounds_of_failed (by simp [Decoded.fail])⟩
    · right
      rw [if_neg tooShort]
      exact ⟨not_lt.mp tooShort, rfl⟩

section Network

variable {memory : Memory} {pktLen : BitVec 32}

theorem afterEthernet_reads (memory : Memory) (room : 14 ≤ pktLen.toNat) :
    ∀ offset ∈ (afterEthernet memory).reads, offset < pktLen.toNat := by
  simp only [afterEthernet, Decoded.step, List.nil_append, List.mem_cons,
    List.not_mem_nil, or_false]
  omega

theorem toNat_rest (room : 14 ≤ pktLen.toNat) :
    (pktLen - 14).toNat = pktLen.toNat - 14 :=
  BitVec.toNat_sub_of_le room

/-- What the IPv4 layer leaves for the transport layer. -/
def afterIpv4 (memory : Memory) : Decoded :=
  (afterEthernet memory).step [23, 16, 17, 14]
    { ethHdr := some 0
      etherType := wordAt memory 12
      ipVersion := 4
      ipHdr := some 14
      ipProto := byteAt memory 23
      ipLen := wordAt memory 16
      flags := PKT_DECODED_ETH ||| PKT_DECODED_IPV4 }

/-- What the IPv6 layer leaves for the transport layer. -/
def afterIpv6 (memory : Memory) : Decoded :=
  (afterEthernet memory).step [20, 18, 19]
    { ethHdr := some 0
      etherType := wordAt memory 12
      ipVersion := 6
      ipHdr := some 14
      ipProto := byteAt memory 20
      ipLen := wordAt memory 18 + 40
      flags := PKT_DECODED_ETH ||| PKT_DECODED_IPV6 }

theorem decodeNetwork_ipv4 (room : 14 ≤ pktLen.toNat)
    (etherType : wordAt memory 12 = RTE_ETHER_TYPE_IPV4) :
    decodeNetwork memory pktLen 14 (afterEthernet memory) =
      if pktLen.toNat < 34 then (-1, (afterEthernet memory).fail)
      else if ihlAt memory 14 < 20 then (-1, (afterIpv4 memory).fail)
      else decodeTransport memory pktLen (BitVec.ofNat 32 (14 + ihlAt memory 14))
        (afterIpv4 memory) := by
  have start : (14 : BitVec 32).toNat = 14 := rfl
  have isIpv4 : (afterEthernet memory).info.etherType = RTE_ETHER_TYPE_IPV4 :=
    etherType
  rw [decodeNetwork]
  dsimp only
  rw [if_pos isIpv4, decodeIpv4, toNat_rest room, start, sizeofIpv4Hdr]
  by_cases tooShort : pktLen.toNat < 34
  · rw [if_pos (by omega), if_pos tooShort]
  · rw [if_neg (by omega), if_neg tooShort]
    dsimp only
    by_cases small : ihlAt memory 14 < 20
    · rw [if_pos small, if_pos small]
      rfl
    · rw [if_neg small, if_neg small, BitVec.ofNat_add]
      rfl

theorem decodeNetwork_ipv6 (room : 14 ≤ pktLen.toNat)
    (etherType : wordAt memory 12 = RTE_ETHER_TYPE_IPV6) :
    decodeNetwork memory pktLen 14 (afterEthernet memory) =
      if pktLen.toNat < 54 then (-1, (afterEthernet memory).fail)
      else decodeTransport memory pktLen 54 (afterIpv6 memory) := by
  have start : (14 : BitVec 32).toNat = 14 := rfl
  have isIpv6 : (afterEthernet memory).info.etherType = RTE_ETHER_TYPE_IPV6 :=
    etherType
  have notIpv4 : (afterEthernet memory).info.etherType ≠ RTE_ETHER_TYPE_IPV4 := by
    rw [isIpv6]
    decide
  rw [decodeNetwork]
  dsimp only
  rw [if_neg notIpv4, if_pos isIpv6, decodeIpv6, toNat_rest room, start,
    sizeofIpv6Hdr]
  by_cases tooShort : pktLen.toNat < 54
  · rw [if_pos (by omega), if_pos tooShort]
  · rw [if_neg (by omega), if_neg tooShort]
    rfl

theorem afterIpv4_atTransport (memory : Memory) (room : 34 ≤ pktLen.toNat) :
    AtTransport pktLen (afterIpv4 memory) := by
  refine ⟨?_, Or.inl ⟨rfl, 14, rfl, room⟩, rfl⟩
  simp only [afterIpv4, afterEthernet, Decoded.step, List.nil_append, List.mem_append,
    List.mem_cons, List.not_mem_nil, or_false]
  omega

theorem afterIpv6_atTransport (memory : Memory) (room : 54 ≤ pktLen.toNat) :
    AtTransport pktLen (afterIpv6 memory) := by
  refine ⟨?_, Or.inr ⟨rfl, 14, rfl, room⟩, rfl⟩
  simp only [afterIpv6, afterEthernet, Decoded.step, List.nil_append, List.mem_append,
    List.mem_cons, List.not_mem_nil, or_false]
  omega

theorem decodeIpv4_inBounds_iff (room : 14 ≤ pktLen.toNat)
    (short : pktLen.toNat ≤ 65535)
    (etherType : wordAt memory 12 = RTE_ETHER_TYPE_IPV4) :
    InBounds pktLen (decodeNetwork memory pktLen 14 (afterEthernet memory)) ↔
      ¬HeaderPastEnd memory pktLen := by
  rw [decodeNetwork_ipv4 room etherType]
  by_cases tooShort : pktLen.toNat < 34
  · rw [if_pos tooShort]
    refine iff_of_true (inBounds_of_failed (afterEthernet_reads memory room)) ?_
    intro pastEnd
    exact absurd pastEnd.room (not_le.mpr tooShort)
  have atTransport := afterIpv4_atTransport memory (not_lt.mp tooShort)
  rw [if_neg tooShort]
  by_cases small : ihlAt memory 14 < 20
  · rw [if_pos small]
    refine iff_of_true (inBounds_of_failed atTransport.reads) ?_
    intro pastEnd
    exact absurd pastEnd.ihl (not_le.mpr small)
  rw [if_neg small]
  have effect := decodeTransport_effect memory pktLen
    (BitVec.ofNat 32 (14 + ihlAt memory 14)) (afterIpv4 memory)
  have ihl := ihlAt_le memory 14
  have offset : (BitVec.ofNat 32 (14 + ihlAt memory 14)).toNat =
      14 + ihlAt memory 14 := by
    rw [BitVec.toNat_ofNat]
    omega
  by_cases pastEnd : pktLen.toNat < 14 + ihlAt memory 14
  · by_cases known : IsTransport (byteAt memory 23)
    · refine iff_of_false (effect.not_inBounds known (by omega) (by omega)) ?_
      intro inside
      exact inside ⟨etherType, not_lt.mp tooShort, not_lt.mp small, pastEnd, known⟩
    · refine iff_of_true (effect.inBounds atTransport short ?_) ?_
      · intro isTransport
        exact absurd isTransport known
      · intro beyond
        exact known beyond.ipProto
  · refine iff_of_true (effect.inBounds atTransport short ?_) ?_
    · intro _
      rw [BitVec.le_def, offset]
      exact not_lt.mp pastEnd
    · intro beyond
      exact pastEnd beyond.pastEnd

end Network

/-- The decoder is memory safe, and what it reports lies inside the frame, exactly
for the frames whose IPv4 header length does not point past their end. -/
theorem decodePacket_inBounds_iff (memory : Memory) (pktLen : BitVec 32)
    (short : pktLen.toNat ≤ 65535) :
    InBounds pktLen (decodePacket memory pktLen) ↔ ¬HeaderPastEnd memory pktLen := by
  rcases decodePacket_eq memory pktLen with ⟨tooShort, inBounds⟩ | ⟨room, equation⟩
  · refine iff_of_true inBounds ?_
    intro pastEnd
    have enough := pastEnd.room
    omega
  rw [equation]
  by_cases ipv4 : wordAt memory 12 = RTE_ETHER_TYPE_IPV4
  · exact decodeIpv4_inBounds_iff room short ipv4
  refine iff_of_true ?_ fun pastEnd => ipv4 pastEnd.etherType
  by_cases ipv6 : wordAt memory 12 = RTE_ETHER_TYPE_IPV6
  · rw [decodeNetwork_ipv6 room ipv6]
    by_cases tooShort : pktLen.toNat < 54
    · rw [if_pos tooShort]
      exact inBounds_of_failed (afterEthernet_reads memory room)
    · rw [if_neg tooShort]
      apply (decodeTransport_effect memory pktLen 54 (afterIpv6 memory)).inBounds
        (afterIpv6_atTransport memory (not_lt.mp tooShort)) short
      intro _
      exact not_lt.mp tooShort
  · have other : decodeNetwork memory pktLen 14 (afterEthernet memory) =
        (0, afterEthernet memory) := by
      have etherType : (afterEthernet memory).info.etherType = wordAt memory 12 := rfl
      rw [decodeNetwork]
      dsimp only
      rw [etherType, if_neg ipv4, if_neg ipv6]
    have flags : (afterEthernet memory).info.flags = PKT_DECODED_ETH := rfl
    rw [other]
    refine ⟨afterEthernet_reads memory room, fun _ => ?_, fun _ start set => ?_⟩
    · constructor <;> rw [flags] <;> intro set <;> exact absurd rfl set
    · cases set

/-- The memory of a frame given by its bytes, with zeros behind it. -/
def frameMemory (frame : List UInt8) : Memory := fun offset => frame.getD offset 0

/-- An ARP frame of 60 bytes. -/
theorem decodePacket_inBounds_iff_arp :
    let memory := frameMemory
      [255, 255, 255, 255, 255, 255, 2, 0, 0, 0, 0, 1, 0x08, 0x06]
    InBounds 60 (decodePacket memory 60) := by
  intro memory
  refine (decodePacket_inBounds_iff memory 60 (by decide)).mpr ?_
  intro pastEnd
  have etherType := pastEnd.etherType
  revert etherType
  decide

/-- A 34-byte IPv4 frame with header length 60 and protocol TCP: the TCP header is
read 40 bytes past the end of the frame. -/
theorem decodePacket_reads_past_end :
    let memory := frameMemory
      [2, 0, 0, 0, 0, 2, 2, 0, 0, 0, 0, 1, 0x08, 0x00, 0x4F, 0, 0, 20, 0, 0, 0, 0, 64, 6,
        0, 0, 10, 0, 0, 1, 10, 0, 0, 2]
    74 ∈ (decodePacket memory 34).2.reads ∧
      ¬InBounds 34 (decodePacket memory 34) := by
  refine ⟨by decide, ?_⟩
  intro inBounds
  have inside := inBounds.reads 74 (by decide)
  revert inside
  decide

/-! ## The payload of a padded frame -/

/-- The length of the IP header of a frame. -/
def ipHeaderLength (memory : Memory) : Nat :=
  if wordAt memory 12 = RTE_ETHER_TYPE_IPV4 then ihlAt memory 14 else 40

/-- The length of the IP datagram, header included, as its header gives it. -/
def ipLength (memory : Memory) : Nat :=
  if wordAt memory 12 = RTE_ETHER_TYPE_IPV4 then (wordAt memory 16).toNat
  else (wordAt memory 18).toNat + 40

/-- The transport protocol of a frame. -/
def transportProtocol (memory : Memory) : BitVec 8 :=
  if wordAt memory 12 = RTE_ETHER_TYPE_IPV4 then byteAt memory 23
  else byteAt memory 20

/-- The length of the TCP or UDP header of a frame. -/
def transportHeaderLength (memory : Memory) : Nat :=
  if transportProtocol memory = IPPROTO_TCP then
    tcpHdrLenAt memory (14 + ipHeaderLength memory)
  else 8

/-- A frame that carries a TCP or UDP datagram, with any padding behind it. -/
structure WellFormed (memory : Memory) (pktLen : BitVec 32) : Prop where
  etherType : wordAt memory 12 = RTE_ETHER_TYPE_IPV4 ∧ byteAt memory 14 >>> 4 = 4 ∨
    wordAt memory 12 = RTE_ETHER_TYPE_IPV6 ∧ byteAt memory 14 >>> 4 = 6
  protocol : transportProtocol memory = IPPROTO_TCP ∨
    transportProtocol memory = IPPROTO_UDP
  ipHeader : 20 ≤ ipHeaderLength memory
  transportHeader : transportProtocol memory = IPPROTO_TCP →
    20 ≤ transportHeaderLength memory
  datagram : ipHeaderLength memory + transportHeaderLength memory ≤ ipLength memory
  frame : 14 + ipLength memory ≤ pktLen.toNat

/-- The bytes of the frame behind the IP datagram. -/
def paddingLength (memory : Memory) (pktLen : BitVec 32) : Nat :=
  pktLen.toNat - (14 + ipLength memory)

/-- The payload is what follows the transport header in the IP datagram. -/
structure PayloadExact (memory : Memory) (info : PacketInfo) : Prop where
  length : info.payloadLen.toNat =
    ipLength memory - ipHeaderLength memory - transportHeaderLength memory
  start : info.payloadLen ≠ 0 → info.payload =
    some (14 + ipHeaderLength memory + transportHeaderLength memory)

theorem tcpHdrLenAt_le (memory : Memory) (start : Nat) :
    tcpHdrLenAt memory start ≤ 60 := by
  have nibble : ∀ byte : BitVec 8, ((byte &&& 0xF0) >>> 4).toNat ≤ 15 := by decide
  have bound := nibble (byteAt memory (start + 12))
  rw [tcpHdrLenAt]
  omega

/-- The transport layer of a well-formed frame goes on to the payload. -/
theorem decodeTransport_payload {memory : Memory} {pktLen offset : BitVec 32}
    {decoded : Decoded} {length : Nat}
    (layer : decoded.info.ipProto = IPPROTO_TCP ∧
        length = tcpHdrLenAt memory offset.toNat ∧ 20 ≤ length ∨
      decoded.info.ipProto = IPPROTO_UDP ∧ length = 8)
    (room : length ≤ (pktLen - offset).toNat) :
    ∃ after, decodeTransport memory pktLen offset decoded =
        (0, setPayload pktLen (offset + BitVec.ofNat 32 length) after) ∧
      after.info.payload = decoded.info.payload ∧
      after.info.payloadLen = decoded.info.payloadLen := by
  rw [decodeTransport]
  dsimp only
  rcases layer with ⟨isTcp, lengthEq, enough⟩ | ⟨isUdp, lengthEq⟩
  · have notShort : ¬(pktLen - offset).toNat < sizeofTcpHdr := by
      rw [sizeofTcpHdr]
      omega
    have valid : ¬tcpHdrLenAt memory offset.toNat < sizeofTcpHdr := by
      rw [sizeofTcpHdr]
      omega
    rw [if_pos isTcp, decodeTcp, if_neg notShort]
    dsimp only
    rw [if_neg valid, ← lengthEq]
    exact ⟨_, rfl, rfl, rfl⟩
  · have notTcp : decoded.info.ipProto ≠ IPPROTO_TCP := by
      rw [isUdp]
      decide
    have notShort : ¬(pktLen - offset).toNat < sizeofUdpHdr := by
      rw [sizeofUdpHdr]
      omega
    rw [if_neg notTcp, if_pos isUdp, decodeUdp, if_neg notShort, lengthEq]
    exact ⟨_, rfl, rfl, rfl⟩

theorem setPayload_length {pktLen offset : BitVec 32} {decoded : Decoded}
    (inside : offset ≤ pktLen) (empty : decoded.info.payloadLen = 0) :
    (setPayload pktLen offset decoded).info.payloadLen.toNat =
        (pktLen.toNat - offset.toNat) % 65536 ∧
      ((setPayload pktLen offset decoded).info.payloadLen ≠ 0 →
        (setPayload pktLen offset decoded).info.payload = some offset.toNat) := by
  rw [setPayload]
  split
  next before =>
    refine ⟨?_, fun _ => rfl⟩
    dsimp only
    rw [BitVec.toNat_setWidth, BitVec.toNat_sub_of_le inside]
  next notBefore =>
    have equal : offset.toNat = pktLen.toNat :=
      le_antisymm inside (not_lt.mp notBefore)
    refine ⟨?_, fun nonempty => absurd empty nonempty⟩
    rw [empty, equal, Nat.sub_self]
    rfl

theorem ipHeaderLength_le (memory : Memory) : ipHeaderLength memory ≤ 60 := by
  rw [ipHeaderLength]
  split
  next => exact ihlAt_le memory 14
  next => decide

/-- A well-formed frame reaches the transport layer. -/
theorem WellFormed.decodePacket_eq {memory : Memory} {pktLen : BitVec 32}
    (wellFormed : WellFormed memory pktLen) :
    ∃ decoded, decodePacket memory pktLen = decodeTransport memory pktLen
        (BitVec.ofNat 32 (14 + ipHeaderLength memory)) decoded ∧
      decoded.info.ipProto = transportProtocol memory ∧
      decoded.info.payloadLen = 0 := by
  have ipHeader := wellFormed.ipHeader
  have datagram := wellFormed.datagram
  have frame := wellFormed.frame
  rcases NetDefender.Packets.decodePacket_eq memory pktLen with
    ⟨tooShort, _⟩ | ⟨room, equation⟩
  · omega
  rw [equation]
  rcases wellFormed.etherType with ⟨ipv4, _⟩ | ⟨ipv6, _⟩
  · have headerEq : ipHeaderLength memory = ihlAt memory 14 := by
      rw [ipHeaderLength, if_pos ipv4]
    rw [decodeNetwork_ipv4 room ipv4, if_neg (by omega), if_neg (by omega), headerEq]
    refine ⟨afterIpv4 memory, rfl, ?_, rfl⟩
    rw [transportProtocol, if_pos ipv4]
    rfl
  · have notIpv4 : wordAt memory 12 ≠ RTE_ETHER_TYPE_IPV4 := by
      rw [ipv6]
      decide
    have headerEq : ipHeaderLength memory = 40 := by
      rw [ipHeaderLength, if_neg notIpv4]
    rw [decodeNetwork_ipv6 room ipv6, if_neg (by omega), headerEq]
    refine ⟨afterIpv6 memory, rfl, ?_, rfl⟩
    rw [transportProtocol, if_neg notIpv4]
    rfl

/-- The payload of a well-formed frame runs from the end of the transport header
to the end of the frame, counted modulo `2 ^ 16`. -/
theorem decodePacket_wellFormed {memory : Memory} {pktLen : BitVec 32}
    (wellFormed : WellFormed memory pktLen) :
    ∃ decoded, decodePacket memory pktLen = (0, decoded) ∧
      decoded.info.payloadLen.toNat = (pktLen.toNat - (14 + ipHeaderLength memory +
        transportHeaderLength memory)) % 65536 ∧
      (decoded.info.payloadLen ≠ 0 → decoded.info.payload =
        some (14 + ipHeaderLength memory + transportHeaderLength memory)) := by
  have datagram := wellFormed.datagram
  have frame := wellFormed.frame
  have ipBound := ipHeaderLength_le memory
  obtain ⟨decoded, equation, protocol, empty⟩ := wellFormed.decodePacket_eq
  have offset : (BitVec.ofNat 32 (14 + ipHeaderLength memory)).toNat =
      14 + ipHeaderLength memory := by
    rw [BitVec.toNat_ofNat]
    omega
  have lengthBound : transportHeaderLength memory ≤ 60 := by
    rw [transportHeaderLength]
    split
    next => exact tcpHdrLenAt_le _ _
    next => decide
  have room : transportHeaderLength memory ≤
      (pktLen - BitVec.ofNat 32 (14 + ipHeaderLength memory)).toNat := by
    rw [BitVec.toNat_sub_of_le (BitVec.le_def.mpr (by omega)), offset]
    omega
  have layer : decoded.info.ipProto = IPPROTO_TCP ∧
        transportHeaderLength memory = tcpHdrLenAt memory
          (BitVec.ofNat 32 (14 + ipHeaderLength memory)).toNat ∧
        20 ≤ transportHeaderLength memory ∨
      decoded.info.ipProto = IPPROTO_UDP ∧ transportHeaderLength memory = 8 := by
    rw [protocol, offset]
    rcases wellFormed.protocol with isTcp | isUdp
    · refine Or.inl ⟨isTcp, ?_, wellFormed.transportHeader isTcp⟩
      rw [transportHeaderLength, if_pos isTcp]
    · refine Or.inr ⟨isUdp, ?_⟩
      rw [transportHeaderLength, if_neg]
      rw [isUdp]
      decide
  obtain ⟨after, result, _, afterEmpty⟩ := decodeTransport_payload layer room
  have start : (BitVec.ofNat 32 (14 + ipHeaderLength memory) +
      BitVec.ofNat 32 (transportHeaderLength memory)).toNat =
      14 + ipHeaderLength memory + transportHeaderLength memory := by
    rw [← BitVec.ofNat_add, BitVec.toNat_ofNat]
    omega
  have inside : BitVec.ofNat 32 (14 + ipHeaderLength memory) +
      BitVec.ofNat 32 (transportHeaderLength memory) ≤ pktLen := by
    rw [BitVec.le_def, start]
    omega
  have payload := setPayload_length inside (afterEmpty.trans empty)
  rw [start] at payload
  rw [equation, result]
  exact ⟨_, rfl, payload⟩

/-- The payload of a padded frame is exact if and only if the length of the
padding is a multiple of 65536, in particular when there is none. -/
theorem decodePacket_payload_exact_iff (memory : Memory) (pktLen : BitVec 32)
    (wellFormed : WellFormed memory pktLen) :
    (∃ decoded, decodePacket memory pktLen = (0, decoded) ∧
        PayloadExact memory decoded.info) ↔
      paddingLength memory pktLen % 65536 = 0 := by
  obtain ⟨decoded, equation, length, start⟩ := decodePacket_wellFormed wellFormed
  have datagram := wellFormed.datagram
  have frame := wellFormed.frame
  have payloadBound : ipLength memory - ipHeaderLength memory < 65536 := by
    rw [ipLength, ipHeaderLength]
    split
    next =>
      have bound := (wordAt memory 16).isLt
      omega
    next =>
      have bound := (wordAt memory 18).isLt
      omega
  rw [paddingLength]
  constructor
  · rintro ⟨other, same, exact⟩
    rw [equation] at same
    cases same
    have exactLength := exact.length
    omega
  · intro multiple
    refine ⟨decoded, equation, ⟨?_, start⟩⟩
    omega

/-- A bare acknowledgement of 40 bytes in a frame without padding. -/
theorem decodePacket_payload_exact_iff_unpadded :
    let memory := frameMemory
      [2, 0, 0, 0, 0, 2, 2, 0, 0, 0, 0, 1, 0x08, 0x00, 0x45, 0, 0, 40, 0, 0, 0, 0, 64, 6,
        0, 0, 10, 0, 0, 1, 10, 0, 0, 2, 0xC0, 0, 0, 80, 0, 0, 0, 1, 0, 0, 0, 1, 0x50,
        0x10]
    ∃ decoded, decodePacket memory 54 = (0, decoded) ∧
      PayloadExact memory decoded.info := by
  intro memory
  refine (decodePacket_payload_exact_iff memory 54 ?_).mpr (by decide)
  exact ⟨by decide, by decide, by decide, by decide, by decide, by decide⟩

/-- The same acknowledgement padded to 60 bytes: six padding bytes become payload. -/
theorem decodePacket_takes_padding :
    let memory := frameMemory
      [2, 0, 0, 0, 0, 2, 2, 0, 0, 0, 0, 1, 0x08, 0x00, 0x45, 0, 0, 40, 0, 0, 0, 0, 64, 6,
        0, 0, 10, 0, 0, 1, 10, 0, 0, 2, 0xC0, 0, 0, 80, 0, 0, 0, 1, 0, 0, 0, 1, 0x50,
        0x10]
    WellFormed memory 60 ∧
      (decodePacket memory 60).1 = 0 ∧
      (decodePacket memory 60).2.info.payloadLen = 6 ∧
      (decodePacket memory 60).2.info.payload = some 54 ∧
      ¬PayloadExact memory (decodePacket memory 60).2.info := by
  refine ⟨⟨by decide, by decide, by decide, by decide, by decide, by decide⟩,
    by decide, by decide, by decide, ?_⟩
  intro exact
  have length := exact.length
  revert length
  decide

end NetDefender.Packets
