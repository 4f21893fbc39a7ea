import Mathlib.Data.BitVec

/-!
# Packet decoding

The layers of `packet_decode.c`.  A frame is the memory behind `pkt_data`, which
has contents past the end of the frame too, and its length `pkt_len`.  Header
pointers are offsets from `pkt_data`; every byte that a layer reads is recorded, so
that reads can be compared with the length of the frame.  Log lines are left out.
-/

namespace NetDefender.Packets

/-- The bytes from `pkt_data` on, whether or not they belong to the frame. -/
abbrev Memory := Nat → UInt8

/-- The byte at an offset. -/
def byteAt (memory : Memory) (offset : Nat) : BitVec 8 := (memory offset).toBitVec

/-- `rte_be_to_cpu_16` of the two bytes at an offset. -/
def wordAt (memory : Memory) (offset : Nat) : BitVec 16 :=
  byteAt memory offset ++ byteAt memory (offset + 1)

/-- `packet_info_t`.  The two header unions are one offset each. -/
structure PacketInfo where
  ethHdr : Option Nat := none
  etherType : BitVec 16 := 0
  ipVersion : BitVec 8 := 0
  ipHdr : Option Nat := none
  ipProto : BitVec 8 := 0
  ipLen : BitVec 16 := 0
  transportHdr : Option Nat := none
  srcPort : BitVec 16 := 0
  dstPort : BitVec 16 := 0
  payload : Option Nat := none
  payloadLen : BitVec 16 := 0
  flags : BitVec 32 := 0
  deriving DecidableEq, Repr

def PKT_DECODED_ETH : BitVec 32 := 1
def PKT_DECODED_IPV4 : BitVec 32 := 2
def PKT_DECODED_IPV6 : BitVec 32 := 4
def PKT_DECODED_TCP : BitVec 32 := 8
def PKT_DECODED_UDP : BitVec 32 := 16
def PKT_DECODED_ICMP : BitVec 32 := 32
def PKT_ERROR : BitVec 32 := 0x80000000

def RTE_ETHER_TYPE_IPV4 : BitVec 16 := 0x0800
def RTE_ETHER_TYPE_IPV6 : BitVec 16 := 0x86DD

def IPPROTO_ICMP : BitVec 8 := 1
def IPPROTO_TCP : BitVec 8 := 6
def IPPROTO_UDP : BitVec 8 := 17
def IPPROTO_ICMPV6 : BitVec 8 := 58

/-- `sizeof` of the headers. -/
def sizeofEtherHdr : Nat := 14
def sizeofIpv4Hdr : Nat := 20
def sizeofIpv6Hdr : Nat := 40
def sizeofTcpHdr : Nat := 20
def sizeofUdpHdr : Nat := 8
def sizeofIcmpHdr : Nat := 8

/-- The output of a decoder: what it has filled in and the offsets it has read. -/
structure Decoded where
  info : PacketInfo := {}
  reads : List Nat := []
  deriving DecidableEq, Repr

/-- Record reads and fill in fields. -/
def Decoded.step (decoded : Decoded) (reads : List Nat) (info : PacketInfo) : Decoded where
  info := info
  reads := decoded.reads ++ reads

/-- `pkt_info->flags |= PKT_ERROR`. -/
def Decoded.fail (decoded : Decoded) : Decoded :=
  { decoded with
    info := { decoded.info with flags := decoded.info.flags ||| PKT_ERROR } }

/-- `decode_ethernet`; like the other layers it gives the length of its header, or
`none` for the return value `-1`. -/
def decodeEthernet (memory : Memory) (start : Nat) (pktLen : BitVec 32)
    (decoded : Decoded) : Option Nat × Decoded :=
  if pktLen.toNat < sizeofEtherHdr then (none, decoded.fail)
  else
    (some sizeofEtherHdr, decoded.step [start + 12, start + 13]
      { decoded.info with
        ethHdr := some start
        etherType := wordAt memory (start + 12)
        flags := decoded.info.flags ||| PKT_DECODED_ETH })

/-- The IPv4 header length in bytes, `(version_ihl & 0x0F) * 4`. -/
def ihlAt (memory : Memory) (start : Nat) : Nat :=
  (byteAt memory start &&& 0x0F).toNat * 4

/-- `decode_ipv4`. -/
def decodeIpv4 (memory : Memory) (start : Nat) (pktLen : BitVec 32)
    (decoded : Decoded) : Option Nat × Decoded :=
  if pktLen.toNat < sizeofIpv4Hdr then (none, decoded.fail)
  else
    let decoded := decoded.step [start + 9, start + 2, start + 3, start]
      { decoded.info with
        ipHdr := some start
        ipVersion := 4
        ipProto := byteAt memory (start + 9)
        ipLen := wordAt memory (start + 2)
        flags := decoded.info.flags ||| PKT_DECODED_IPV4 }
    if ihlAt memory start < sizeofIpv4Hdr then (none, decoded.fail)
    else (some (ihlAt memory start), decoded)

/-- `decode_ipv6`. -/
def decodeIpv6 (memory : Memory) (start : Nat) (pktLen : BitVec 32)
    (decoded : Decoded) : Option Nat × Decoded :=
  if pktLen.toNat < sizeofIpv6Hdr then (none, decoded.fail)
  else
    (some sizeofIpv6Hdr, decoded.step [start + 6, start + 4, start + 5]
      { decoded.info with
        ipHdr := some start
        ipVersion := 6
        ipProto := byteAt memory (start + 6)
        ipLen := wordAt memory (start + 4) + BitVec.ofNat 16 sizeofIpv6Hdr
        flags := decoded.info.flags ||| PKT_DECODED_IPV6 })

/-- The TCP header length in bytes, `((data_off & 0xF0) >> 4) * 4`. -/
def tcpHdrLenAt (memory : Memory) (start : Nat) : Nat :=
  ((byteAt memory (start + 12) &&& 0xF0) >>> 4).toNat * 4

/-- `decode_tcp`. -/
def decodeTcp (memory : Memory) (start : Nat) (pktLen : BitVec 32)
    (decoded : Decoded) : Option Nat × Decoded :=
  if pktLen.toNat < sizeofTcpHdr then (none, decoded.fail)
  else
    let decoded := decoded.step
      [start, start + 1, start + 2, start + 3, start + 12]
      { decoded.info with
        transportHdr := some start
        srcPort := wordAt memory start
        dstPort := wordAt memory (start + 2)
        flags := decoded.info.flags ||| PKT_DECODED_TCP }
    if tcpHdrLenAt memory start < sizeofTcpHdr then (none, decoded.fail)
    else (some (tcpHdrLenAt memory start), decoded)

/-- `decode_udp`. -/
def decodeUdp (memory : Memory) (start : Nat) (pktLen : BitVec 32)
    (decoded : Decoded) : Option Nat × Decoded :=
  if pktLen.toNat < sizeofUdpHdr then (none, decoded.fail)
  else
    (some sizeofUdpHdr, decoded.step [start, start + 1, start + 2, start + 3]
      { decoded.info with
        transportHdr := some start
        srcPort := wordAt memory start
        dstPort := wordAt memory (start + 2)
        flags := decoded.info.flags ||| PKT_DECODED_UDP })

/-- `decode_icmp`. -/
def decodeIcmp (start : Nat) (pktLen : BitVec 32) (decoded : Decoded) :
    Option Nat × Decoded :=
  if pktLen.toNat < sizeofIcmpHdr then (none, decoded.fail)
  else
    (some sizeofIcmpHdr, decoded.step []
      { decoded.info with
        transportHdr := some start
        srcPort := 0
        dstPort := 0
        flags := decoded.info.flags ||| PKT_DECODED_ICMP })

/-- Set payload pointer and length; the length is cut to 16 bits. -/
def setPayload (pktLen offset : BitVec 32) (decoded : Decoded) : Decoded :=
  if offset < pktLen then
    { decoded with
      info :=
        { decoded.info with
          payload := some offset.toNat
          payloadLen := (pktLen - offset).setWidth 16 } }
  else decoded

/-- The transport layer and the payload.  `offset` is a 32-bit counter, and the
length that is left, `pkt_len - offset`, is computed modulo `2 ^ 32`. -/
def decodeTransport (memory : Memory) (pktLen offset : BitVec 32)
    (decoded : Decoded) : Int × Decoded :=
  let finish (result : Option Nat × Decoded) : Int × Decoded :=
    match result with
    | (none, decoded) => (-1, decoded)
    | (some length, decoded) =>
        (0, setPayload pktLen (offset + BitVec.ofNat 32 length) decoded)
  let rest := pktLen - offset
  if decoded.info.ipProto = IPPROTO_TCP then
    finish (decodeTcp memory offset.toNat rest decoded)
  else if decoded.info.ipProto = IPPROTO_UDP then
    finish (decodeUdp memory offset.toNat rest decoded)
  else if decoded.info.ipProto = IPPROTO_ICMP ∨
      decoded.info.ipProto = IPPROTO_ICMPV6 then
    finish (decodeIcmp offset.toNat rest decoded)
  else (0, decoded)

/-- The network layer and everything above it. -/
def decodeNetwork (memory : Memory) (pktLen offset : BitVec 32)
    (decoded : Decoded) : Int × Decoded :=
  let transport (result : Option Nat × Decoded) : Int × Decoded :=
    match result with
    | (none, decoded) => (-1, decoded)
    | (some length, decoded) =>
        decodeTransport memory pktLen (offset + BitVec.ofNat 32 length) decoded
  let rest := pktLen - offset
  if decoded.info.etherType = RTE_ETHER_TYPE_IPV4 then
    transport (decodeIpv4 memory offset.toNat rest decoded)
  else if decoded.info.etherType = RTE_ETHER_TYPE_IPV6 then
    transport (decodeIpv6 memory offset.toNat rest decoded)
  -- ARP and unknown EtherTypes are not processed, which is no error
  else (0, decoded)

/-- `decode_packet` on an mbuf that holds the frame in one segment. -/
def decodePacket (memory : Memory) (pktLen : BitVec 32) : Int × Decoded :=
  if pktLen = 0 then (-1, {})
  else
    match decodeEthernet memory 0 pktLen {} with
    | (none, decoded) => (-1, decoded)
    | (some length, decoded) =>
        decodeNetwork memory pktLen (BitVec.ofNat 32 length) decoded

end NetDefender.Packets
