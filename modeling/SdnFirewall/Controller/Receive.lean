import SdnFirewall.Controller.Verdict

/-!
# Receiving packet-ins

The receive loop cuts what a switch has sent into messages, each as long as its header says, and a
packet-in is unpacked from the bytes of its message. The frame is what is left of them behind the
match, whose length varies.
-/

namespace SdnFirewall

open OpenFlow

def OFPT_PACKET_IN : ℕ := 10
def OFP_HEADER_SIZE : ℕ := 8
def OFP_MATCH_SIZE : ℕ := 8
def OFP_PACKET_IN_SIZE : ℕ := 32

/-- `utils.round_up`. -/
def roundUp (x y : ℕ) : ℕ := (x + y - 1) / y * y

/-! ## The parts of a message -/

/-- Where the match of a packet-in starts. -/
def matchStart : ℕ := OFP_PACKET_IN_SIZE - OFP_MATCH_SIZE

/-- The length of the match, as it states it itself. -/
def matchLength (buf : Bytes) : ℕ := u16 buf (matchStart + 2)

/-- Where the frame starts: behind the padded match and two bytes that align it. -/
def frameStart (buf : Bytes) : ℕ := matchStart + roundUp (matchLength buf) 8 + 2

/-- The full length of the frame, of which a message may carry less. -/
def frameLength (buf : Bytes) : ℕ := u16 buf 12

/-- `OFPPacketIn.parser`, with `inPort` the port that the match names. A message whose match is cut
off is not unpacked, and bytes behind the frame are discarded. -/
def PacketIn.parser (inPort : IngressPort) (msgLen : ℕ) (buf : Bytes) : Option PacketIn :=
  if buf.length < matchStart + 4 ∨ buf.length < matchStart + matchLength buf then none
  else
    let data := buf.drop (frameStart buf)
    some
      { msgLen := msgLen
        totalLen := frameLength buf
        bufferId := u32 buf 8
        inPort := inPort
        data := if frameLength buf < data.length then data.take (frameLength buf) else data }

/-- One turn of `_recv_loop` that finds a packet-in: the message, and the bytes behind it. -/
def recvPacketIn (inPort : IngressPort) (buf : Bytes) : Option (PacketIn × Bytes) :=
  if buf.length < OFP_HEADER_SIZE then none
  else
    let msgLen := if u16 buf 2 < OFP_HEADER_SIZE then OFP_HEADER_SIZE else u16 buf 2
    if buf.length < msgLen ∨ u8 buf 1 ≠ OFPT_PACKET_IN then none
    else (PacketIn.parser inPort msgLen (buf.take msgLen)).map fun msg => (msg, buf.drop msgLen)

/-! ## What is received -/

/-- The length of a received message is the number of bytes it was unpacked from. -/
theorem recvPacketIn_eq_some {inPort : IngressPort} {buf rest : Bytes} {msg : PacketIn}
    (h : recvPacketIn inPort buf = some (msg, rest)) :
    ∃ m, buf = m ++ rest ∧ PacketIn.parser inPort m.length m = some msg := by
  unfold recvPacketIn at h
  split at h
  · exact absurd h (by simp)
  · generalize (if u16 buf 2 < OFP_HEADER_SIZE then OFP_HEADER_SIZE else u16 buf 2) = msgLen at h
    simp only at h
    split at h
    · exact absurd h (by simp)
    · rename_i hlen
      obtain ⟨msg', hparse, heq⟩ := Option.map_eq_some_iff.mp h
      obtain ⟨rfl, rfl⟩ := Prod.mk.inj heq
      have hm : (buf.take msgLen).length = msgLen := by
        rw [List.length_take]
        omega
      exact ⟨buf.take msgLen, (List.take_append_drop msgLen buf).symm, by rw [hm]; exact hparse⟩

section Parser

variable {inPort : IngressPort} {msgLen : ℕ} {buf : Bytes} {msg : PacketIn}

/-- The first length the handler compares is that of the whole message. -/
theorem PacketIn.msgLen_parser (h : PacketIn.parser inPort msgLen buf = some msg) :
    msg.msgLen = msgLen := by
  unfold PacketIn.parser at h
  split at h
  · exact absurd h (by simp)
  · rw [← Option.some.inj h]

/-- The other is the one the switch has put into the message. -/
theorem PacketIn.totalLen_parser (h : PacketIn.parser inPort msgLen buf = some msg) :
    msg.totalLen = frameLength buf := by
  unfold PacketIn.parser at h
  split at h
  · exact absurd h (by simp)
  · rw [← Option.some.inj h]

/-- The data is what the message carries behind its match, but no more than the frame. -/
theorem PacketIn.data_parser (h : PacketIn.parser inPort msgLen buf = some msg) :
    msg.data = (buf.drop (frameStart buf)).take (frameLength buf) := by
  unfold PacketIn.parser at h
  split at h
  · exact absurd h (by simp)
  · rw [← Option.some.inj h]
    dsimp only
    split
    · rfl
    · exact (List.take_of_length_le (by omega)).symm

end Parser

end SdnFirewall
