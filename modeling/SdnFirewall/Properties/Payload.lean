import SdnFirewall.Packet.Mininet
import SdnFirewall.System.World

/-!
# The payload of a segment

What the DPI stage takes for the payload of a TCP segment, held against what the IP datagram in the
frame carries. A frame can be longer than its datagram: short ones are padded, others have a
trailer.
-/

namespace SdnFirewall

open Common OpenFlow Python

/-- An unfragmented IPv4/TCP frame whose header and length fields fit together. -/
structure TcpFrame (data : Bytes) (ipPkt : IPv4) (tcpPkt : Tcp) : Prop where
  ipv4 : (Packet.parse data).ipv4 = some ipPkt
  proto : ipPkt.proto = IPPROTO_TCP
  tcp : (Packet.parse data).tcp = some tcpPkt
  /-- No more fragments to come, and this one starts at offset 0. -/
  unfragmented : u16 data 20 % 0x4000 = 0
  headerLength_ge : 5 ≤ ipPkt.headerLength
  offset_ge : 5 ≤ tcpPkt.offset
  headers_le : ipPkt.headerLength * 4 + tcpPkt.offset * 4 ≤ ipPkt.totalLength
  totalLength_le : 14 + ipPkt.totalLength ≤ data.length

/-- The IP datagram of a frame: what stands behind the Ethernet header, up to its total length. -/
def datagram (data : Bytes) (ipPkt : IPv4) : Bytes := (data.drop 14).take ipPkt.totalLength

/-- The payload of the TCP segment in a datagram. -/
def segmentPayload (data : Bytes) (ipPkt : IPv4) (tcpPkt : Tcp) : Bytes :=
  (datagram data ipPkt).drop (ipPkt.headerLength * 4 + tcpPkt.offset * 4)

/-- The bytes of a frame behind its datagram. -/
def trailer (data : Bytes) (ipPkt : IPv4) : Bytes := data.drop (14 + ipPkt.totalLength)

/-- Everything behind the headers is extracted: the code has no end bound. -/
theorem extractTcpPayload_eq_drop (data : Bytes) (ipPkt : IPv4) (tcpPkt : Tcp) :
    extractTcpPayload data ipPkt tcpPkt =
      data.drop (14 + ipPkt.headerLength * 4 + tcpPkt.offset * 4) := by
  unfold extractTcpPayload
  dsimp only
  split
  · rename_i hlen
    exact (List.drop_eq_nil_of_le hlen).symm
  · rfl

/-- What is extracted is the payload followed by the trailer of the frame. -/
theorem extractTcpPayload_eq_append {data : Bytes} {ipPkt : IPv4} {tcpPkt : Tcp}
    (hlen : ipPkt.headerLength * 4 + tcpPkt.offset * 4 ≤ ipPkt.totalLength)
    (htotal : 14 + ipPkt.totalLength ≤ data.length) :
    extractTcpPayload data ipPkt tcpPkt =
      segmentPayload data ipPkt tcpPkt ++ trailer data ipPkt := by
  have hsplit : data.drop 14 = datagram data ipPkt ++ trailer data ipPkt := by
    rw [datagram, trailer, ← List.drop_drop]
    exact (List.take_append_drop _ _).symm
  have hdatagram : (datagram data ipPkt).length = ipPkt.totalLength := by
    rw [datagram, List.length_take, List.length_drop]
    omega
  rw [extractTcpPayload_eq_drop, Nat.add_assoc, ← List.drop_drop, hsplit,
    List.drop_append_of_le_length (by rw [hdatagram]; exact hlen), segmentPayload]

/-- The payload of a well-formed frame is extracted exactly when the frame ends with its
datagram. -/
theorem extractTcpPayload_exact_iff {data : Bytes} {ipPkt : IPv4} {tcpPkt : Tcp}
    (h : TcpFrame data ipPkt tcpPkt) :
    extractTcpPayload data ipPkt tcpPkt = segmentPayload data ipPkt tcpPkt ↔
      data.length = 14 + ipPkt.totalLength := by
  rw [extractTcpPayload_eq_append h.headers_le h.totalLength_le, List.append_right_eq_self, trailer,
    List.drop_eq_nil_iff]
  have htotal := h.totalLength_le
  omega

/-- A segment that carries `GET /`, with an option in its IP header and one in its TCP header. -/
def optionsFrame : Bytes :=
  stationOf 2 ++ stationOf 1 ++ [0x08, 0x00] ++
    [0x46, 0, 0, 53, 0, 0, 0, 0, 64, 6, 0, 0] ++ addressOf 1 ++ addressOf 2 ++ [0x94, 4, 0, 0] ++
    [0, 100, 0, 80, 0, 0, 0, 1, 0, 0, 0, 1, 0x60, 0x18, 1, 0, 0, 0, 0, 0] ++ [2, 4, 5, 180] ++
    [71, 69, 84, 32, 47]

/-- Its length fields fit together. -/
theorem tcpFrame_optionsFrame :
    TcpFrame optionsFrame ⟨6, 53, 6, "10.0.0.1", "10.0.0.2"⟩ ⟨100, 80, 1, 6, 24⟩ := by
  constructor <;> decide +kernel

/-- The options are skipped, and nothing stands behind the datagram. -/
theorem extractTcpPayload_exact_options :
    extractTcpPayload optionsFrame ⟨6, 53, 6, "10.0.0.1", "10.0.0.2"⟩ ⟨100, 80, 1, 6, 24⟩ =
        segmentPayload optionsFrame ⟨6, 53, 6, "10.0.0.1", "10.0.0.2"⟩ ⟨100, 80, 1, 6, 24⟩ ∧
      segmentPayload optionsFrame ⟨6, 53, 6, "10.0.0.1", "10.0.0.2"⟩ ⟨100, 80, 1, 6, 24⟩ =
        [71, 69, 84, 32, 47] :=
  ⟨(extractTcpPayload_exact_iff tcpFrame_optionsFrame).mpr (by decide +kernel), by decide +kernel⟩

/-- A bare acknowledgement from host 1 to host 2, padded to the 60 bytes a frame must have. -/
def paddedAck : Bytes := tcpFrame 1 2 100 80 [] ++ List.replicate 6 0

/-- The headers of that frame. -/
def ackIp : IPv4 := ⟨5, 40, 6, "10.0.0.1", "10.0.0.2"⟩

def ackTcp : Tcp := ⟨100, 80, 1, 5, 16⟩

/-- So do those of the padded frame. -/
theorem tcpFrame_paddedAck : TcpFrame paddedAck ackIp ackTcp := by
  constructor <;> decide +kernel

/-- The acknowledgement carries nothing, but its padding is extracted and gets into the buffer of
the flow. -/
theorem not_exact_paddedAck :
    TcpFrame paddedAck ackIp ackTcp ∧ segmentPayload paddedAck ackIp ackTcp = [] ∧
      extractTcpPayload paddedAck ackIp ackTcp = [0, 0, 0, 0, 0, 0] ∧
      ((World.run builtinCompile builtinEngine
        [.handshake 1, .packetIn 1 0 (packetInFrom 1 paddedAck)]).ctl.entryOf
          (flowKeyOf ackIp ackTcp.l4)).bufA = [0, 0, 0, 0, 0, 0] :=
  ⟨tcpFrame_paddedAck, by decide +kernel, by decide +kernel, by decide +kernel⟩

end SdnFirewall
