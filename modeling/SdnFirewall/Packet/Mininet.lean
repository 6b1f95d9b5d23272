import SdnFirewall.Controller.Handlers

/-!
# Frames of a Mininet host

The hosts of a Mininet started with automatic station addresses: host `n` is `10.0.0.n` at station
`00:00:00:00:00:n`, behind a port of its own. Its frames are used to run the controller on.
-/

namespace SdnFirewall

open OpenFlow

def stationOf (n : UInt8) : Bytes := [0, 0, 0, 0, 0, n]

def addressOf (n : UInt8) : Bytes := [10, 0, 0, n]

/-- The ports of the hosts are ports a frame can come in by. -/
theorem portOf_valid (n : UInt8) :
    1 ≤ n.toNat + 1 ∧ n.toNat + 1 ≤ OFPP_MAX ∨ n.toNat + 1 = OFPP_LOCAL := by
  have hlt := n.toNat_lt
  refine Or.inl ⟨by omega, ?_⟩
  simp only [OFPP_MAX]
  omega

/-- The switch port of a host. -/
def portOf (n : UInt8) : IngressPort where
  no := n.toNat + 1
  valid := portOf_valid n

/-- An ARP reply from a host to another that binds the address of host `claimed` to the sender. -/
def arpFrame (src dst claimed : UInt8) : Bytes :=
  stationOf dst ++ stationOf src ++ [0x08, 0x06] ++
    [0, 1, 8, 0, 6, 4, 0, 2] ++ stationOf src ++ addressOf claimed ++
    stationOf dst ++ addressOf dst

/-- An IPv4 frame without options. -/
def ipv4Frame (src dst proto : UInt8) (rest : Bytes) : Bytes :=
  stationOf dst ++ stationOf src ++ [0x08, 0x00] ++
    [0x45, 0, 0, 20 + UInt8.ofNat rest.length, 0, 0, 0, 0, 64, proto, 0, 0] ++
    addressOf src ++ addressOf dst ++ rest

/-- A UDP datagram without payload. -/
def udpFrame (src dst srcPort dstPort : UInt8) : Bytes :=
  ipv4Frame src dst 17 [0, srcPort, 0, dstPort, 0, 8, 0, 0]

/-- A TCP segment with the ACK flag. -/
def tcpFrame (src dst srcPort dstPort : UInt8) (payload : Bytes) : Bytes :=
  ipv4Frame src dst 6 ([0, srcPort, 0, dstPort, 0, 0, 0, 1, 0, 0, 0, 1, 0x50, 0x10, 1, 0, 0, 0,
    0, 0] ++ payload)

/-- The packet-in a host's frame raises, with the whole frame in it. -/
def packetInFrom (n : UInt8) (data : Bytes) : PacketIn where
  msgLen := data.length + 42
  totalLen := data.length
  bufferId := OFP_NO_BUFFER
  inPort := portOf n
  data := data

/-- Does the byte string contain the comment sequence `--`? -/
def hasComment : Bytes → Bool
  | 0x2d :: 0x2d :: _ => true
  | _ :: bs => hasComment bs
  | [] => false

/-- What has a comment sequence has one with a byte in front, too. -/
theorem hasComment_cons (x : UInt8) {bs : Bytes} (h : hasComment bs = true) :
    hasComment (x :: bs) = true := by
  rw [hasComment.eq_def]
  split
  · rfl
  · rename_i heq
    cases heq
    exact h
  · rename_i heq
    cases heq

/-- The comment test is kept by extension. -/
theorem hasComment_append (b b' : Bytes) (h : hasComment b = true) :
    hasComment (b ++ b') = true := by
  fun_induction hasComment b with
  | case1 => rfl
  | case2 x bs _ ih => exact hasComment_cons x (ih h)
  | case3 => exact absurd h (by simp)

/-- The compiled built-in signatures, as far as the frames of this file can tell them apart: what
they contain of the signatures is the comment sequence of the first one. -/
def builtinCompile : ReCompile := fun text =>
  .ok (if some text = builtinDpiPatterns.head?.map (·.2.1) then hasComment else fun _ => false)

/-- The engine the controller starts with. -/
def builtinEngine : DPIEngine :=
  match DPIEngine.init builtinCompile with
  | .ok dpi => dpi
  | .error _ => ⟨[]⟩

end SdnFirewall
