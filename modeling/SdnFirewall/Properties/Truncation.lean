import SdnFirewall.Controller.Receive
import SdnFirewall.Packet.Mininet
import SdnFirewall.System.World

/-!
# Truncated frames

The guard of the packet-in handler compares the length of the frame with the length of the whole
message, in which the headers and the match of the message are counted too. A frame that lacks no
more bytes than these have passes for a complete one.
-/

namespace SdnFirewall

open Common OpenFlow Python

/-- The number of bytes of the frame, and behind it, that a message carries. -/
def carried (buf : Bytes) : ℕ := buf.length - frameStart buf

/-- The message carries a part of its frame, and lacks no more of it than it has bytes in front of
that part. -/
def CutWithin (buf : Bytes) : Prop :=
  0 < carried buf ∧ carried buf < frameLength buf ∧ frameLength buf ≤ frameStart buf + carried buf

section Received

variable {inPort : IngressPort} {buf : Bytes} {msg : PacketIn}

/-- The frame that is handed on is as long as was announced, or as was carried if that is less. -/
theorem PacketIn.length_data_parser (h : PacketIn.parser inPort buf.length buf = some msg) :
    msg.data.length = min (frameLength buf) (carried buf) := by
  rw [PacketIn.data_parser h, List.length_take, List.length_drop, carried]

/-- What passes the guard: a message with some of a frame, that is as long as the frame at least. -/
theorem PacketIn.proceeds_parser_iff (h : PacketIn.parser inPort buf.length buf = some msg) :
    msg.Proceeds ↔ 0 < min (frameLength buf) (carried buf) ∧ frameLength buf ≤ buf.length := by
  rw [PacketIn.Proceeds, PacketIn.msgLen_parser h, PacketIn.totalLen_parser h, not_lt,
    ← List.length_pos_iff, PacketIn.length_data_parser h]

/-- A message that passes the guard has the whole frame, unless it is cut by no more than the length
of its headers. -/
theorem PacketIn.complete_parser_iff (h : PacketIn.parser inPort buf.length buf = some msg) :
    (msg.Proceeds → msg.data.length = msg.totalLen) ↔ ¬ CutWithin buf := by
  rw [PacketIn.proceeds_parser_iff h, PacketIn.length_data_parser h, PacketIn.totalLen_parser h,
    CutWithin]
  have hcarried : carried buf = buf.length - frameStart buf := rfl
  omega

end Received

/-- A received message that passes the guard has the whole frame, unless it is cut by no more than
the length of its headers. -/
theorem complete_of_proceeds_iff {inPort : IngressPort} {buf rest : Bytes} {msg : PacketIn}
    (h : recvPacketIn inPort (buf ++ rest) = some (msg, rest)) :
    (msg.Proceeds → msg.data.length = msg.totalLen) ↔ ¬ CutWithin buf := by
  obtain ⟨buf', hbuf, hparse⟩ := recvPacketIn_eq_some h
  obtain rfl : buf = buf' := List.append_cancel_right hbuf
  exact PacketIn.complete_parser_iff hparse

deriving instance DecidableEq for PacketIn

/-- The bytes in which a switch sends the first part of a frame that came in by port 2. -/
def packetInBytes (frame part : Bytes) : Bytes :=
  [4, 10, 0, 42 + UInt8.ofNat part.length, 0, 0, 0, 0] ++
    [0xff, 0xff, 0xff, 0xff, 0, UInt8.ofNat frame.length, 0, 0, 0, 0, 0, 0, 0, 0, 0, 0] ++
    [0, 1, 0, 12, 0x80, 0, 0, 4, 0, 0, 0, 2, 0, 0, 0, 0] ++ [0, 0] ++ part

/-- The message these bytes are. -/
def packetInPart (frame part : Bytes) : PacketIn where
  msgLen := part.length + 42
  totalLen := frame.length
  bufferId := OFP_NO_BUFFER
  inPort := portOf 1
  data := part

/-- A TCP segment with 36 bytes of payload. -/
def longSegment : Bytes := tcpFrame 1 2 100 80 (List.replicate 36 0x41)

/-- The message is received whole, with nothing left over. -/
theorem recvPacketIn_longSegment :
    recvPacketIn (portOf 1) (packetInBytes longSegment longSegment ++ []) =
      some (packetInPart longSegment longSegment, []) := by
  decide +kernel

/-- The segment is sent whole. -/
theorem complete_of_proceeds_iff_longSegment :
    ((packetInPart longSegment longSegment).Proceeds →
        (packetInPart longSegment longSegment).data.length =
          (packetInPart longSegment longSegment).totalLen) ↔
      ¬ CutWithin (packetInBytes longSegment longSegment) :=
  complete_of_proceeds_iff recvPacketIn_longSegment

/-- Of the 90 bytes of the segment the message has 56, and the guard lets it pass: the two bytes of
the payload that came along are inspected and kept. -/
theorem not_complete_cutSegment :
    recvPacketIn (portOf 1) (packetInBytes longSegment (longSegment.take 56)) =
        some (packetInPart longSegment (longSegment.take 56), []) ∧
      (packetInPart longSegment (longSegment.take 56)).Proceeds ∧
      (packetInPart longSegment (longSegment.take 56)).data.length <
        (packetInPart longSegment (longSegment.take 56)).totalLen ∧
      (World.run builtinCompile builtinEngine [.handshake 1,
        .packetIn 1 0 (packetInPart longSegment (longSegment.take 56))]).ctl.trustTable.values.map
          TrustEntry.bufA = [[0x41, 0x41]] := by
  refine ⟨?_, ⟨?_, ?_⟩, ?_, ?_⟩ <;> decide +kernel

end SdnFirewall
