import SdnFirewall.Controller.Checks

/-!
# The OpenFlow event handlers

The handshake and the packet-in handler. The latter is cut where the source draws its own lines:
the filtering area, which finds the verdict, and the area that applies the outcome.
-/

namespace SdnFirewall

open Common OpenFlow Python

/-- `switch_handshake_handler`: the table-miss entry and the IPv4 catch-all. -/
def switchHandshakeHandler (datapath : Datapath) : Fw Unit := do
  Prog.modify fun c => { c with datapaths := c.datapaths.set datapath.id datapath }
  Prog.modify fun c => { c with arpTable := .empty }
  addFlow datapath 0 {} [toController]
  addFlow datapath 300 ipv4Match [toController]

/-- A packet-in message. -/
structure PacketIn where
  msgLen : ℕ
  totalLen : ℕ
  bufferId : ℕ
  inPort : IngressPort
  data : Bytes

/-- The filtering area: the verdict on a frame, `none` for an ethertype that is ignored. -/
def filterArea (datapath : Datapath) (now : ℚ) (data : Bytes) (pkt : Packet) (ethPkt : Ethernet) :
    Fw (Option CheckResult) := do
  if ethPkt.ethertype = ETH_TYPE_IP then
    let result ← ipv4PacketHandler datapath now data pkt.ipv4
    pure (some result)
  else if ethPkt.ethertype = ETH_TYPE_ARP then
    let result ← arpPacketHandler datapath pkt.arp
    pure (some result)
  else pure none

/-- The protocol and port a blocked-port message names. -/
def portBlockArgs (pkt : Packet) (ipPkt : IPv4) : Fw (String × ℕ) := do
  if ipPkt.proto = 6 then
    let tcpPkt ← Prog.orRaise .attributeError pkt.tcp
    pure ("TCP", tcpPkt.dstPort)
  else if ipPkt.proto = 17 then
    let udpPkt ← Prog.orRaise .attributeError pkt.udp
    pure ("UDP", udpPkt.dstPort)
  else pure (toString ipPkt.proto, 0)

/-- The exit point of rejected packets: collect what the log entry names. The IPv4 header is there,
since a check has read it. -/
def rejectPacket (pkt : Packet) (ethPkt : Ethernet) (result : CheckResult) : Fw Unit := do
  if ethPkt.ethertype ≠ ETH_TYPE_IP then
    applyResult result ethPkt.src ethPkt.dst "" 0
  else
    let ipPkt ← Prog.orRaise .attributeError pkt.ipv4
    if result = .portBlocked then
      let (proto, port) ← portBlockArgs pkt ipPkt
      applyResult result ipPkt.src ipPkt.dst proto port
    else applyResult result ipPkt.src ipPkt.dst "" 0

/-- The ports of the TCP or UDP header behind an IPv4 header, if it was parsed. -/
def l4Of (pkt : Packet) (ipPkt : IPv4) : Option L4 :=
  if ipPkt.proto = 6 then pkt.tcp.map Tcp.l4
  else if ipPkt.proto = 17 then pkt.udp.map Udp.l4
  else none

/-- The match of a learned entry: it names the two stations and the port, but no ethertype. -/
def learnedMatch (inPort : ℕ) (ethPkt : Ethernet) : OFPMatch :=
  { inPort := some inPort, ethDst := some ethPkt.dst, ethSrc := some ethPkt.src }

/-- The port the frame goes out of: the learned one of its destination, or all of them. -/
def FirewallApp.outPortOf (c : FirewallApp) (dpid : ℕ) (ethDst : String) : ℕ :=
  ((c.portsOf dpid).get? ethDst).getD OFPP_FLOOD

/-- Send the frame out and count it for its flow. -/
def sendOut (datapath : Datapath) (msg : PacketIn) (pkt : Packet) (ethPkt : Ethernet)
    (outPort : ℕ) : Fw Unit := do
  let data := if msg.bufferId = OFP_NO_BUFFER then some msg.data else none
  sendMsg datapath (.packetOut
    { bufferId := msg.bufferId, inPort := msg.inPort.no, actions := [{ port := outPort }], data })
  if ethPkt.ethertype = ETH_TYPE_IP ∧ outPort ≠ OFPP_FLOOD then
    match pkt.ipv4 with
    | none => pure ()
    | some ipPkt =>
      match l4Of pkt ipPkt with
      | none => pure ()
      | some l4Pkt => recordTrust datapath ipPkt l4Pkt msg.inPort.no outPort
  else pure ()

/-- Routing for allowed packets. A buffered frame is released by the learned entry itself. -/
def forwardPacket (datapath : Datapath) (msg : PacketIn) (pkt : Packet) (ethPkt : Ethernet) :
    Fw Unit := do
  Prog.modify (·.bump .allowed)
  let c ← Prog.read
  let outPort := c.outPortOf datapath.id ethPkt.dst
  if ethPkt.ethertype ≠ ETH_TYPE_IP ∧ outPort ≠ OFPP_FLOOD then
    let m := learnedMatch msg.inPort.no ethPkt
    if msg.bufferId ≠ OFP_NO_BUFFER then
      addFlow datapath 1 m [{ port := outPort }] 0 0 (some msg.bufferId)
    else
      addFlow datapath 1 m [{ port := outPort }]
      sendOut datapath msg pkt ethPkt outPort
  else sendOut datapath msg pkt ethPkt outPort

/-- The area that applies the filter outcome. -/
def outcomeArea (datapath : Datapath) (msg : PacketIn) (pkt : Packet) (ethPkt : Ethernet)
    (result : CheckResult) : Fw Unit := do
  Prog.modify (·.bump .total)
  Prog.modify (·.learnMac datapath.id ethPkt.src msg.inPort.no)
  if result = .dpiBlocked then pure ()
  else if result ≠ .allowed then rejectPacket pkt ethPkt result
  else forwardPacket datapath msg pkt ethPkt

/-- `_packet_in_handler`. -/
def packetInHandler (datapath : Datapath) (now : ℚ) (msg : PacketIn) : Fw Unit := do
  if msg.data = [] then pure ()
  else if msg.msgLen < msg.totalLen then pure ()
  else
    let pkt := Packet.parse msg.data
    let ethPkt ← Prog.orRaise .attributeError pkt.ethernet
    let result ← filterArea datapath now msg.data pkt ethPkt
    match result with
    | none => pure ()
    | some result => outcomeArea datapath msg pkt ethPkt result

/-! ## One undisturbed run -/

/-- The handshake files the switch, forgets the bindings and sends the two entries. -/
theorem run_switchHandshakeHandler (datapath : Datapath) (c : FirewallApp) :
    (switchHandshakeHandler datapath).run c =
      ⟨.ok (), { c with datapaths := c.datapaths.set datapath.id datapath, arpTable := .empty },
        [.sendMsg datapath.id (.flowMod (addFlowMod 0 {} [toController] 0 0 none)),
         .sendMsg datapath.id (.flowMod (addFlowMod 300 ipv4Match [toController] 0 0 none))]⟩ :=
  rfl

/-- Only TCP and UDP have ports. -/
theorem proto_of_l4Of {pkt : Packet} {ipPkt : IPv4} {l4Pkt : L4} (h : l4Of pkt ipPkt = some l4Pkt) :
    ipPkt.proto = 6 ∨ ipPkt.proto = 17 := by
  unfold l4Of at h
  split at h
  · exact Or.inl ‹_›
  · split at h
    · exact Or.inr ‹_›
    · exact absurd h (by simp)

/-- The flow a forwarded frame counts for: it must be IPv4 with a parsed TCP or UDP header, and its
destination must have been learned. -/
def trustTarget? (pkt : Packet) (ethPkt : Ethernet) (outPort : ℕ) : Option (IPv4 × L4) :=
  if ethPkt.ethertype = ETH_TYPE_IP ∧ outPort ≠ OFPP_FLOOD then
    pkt.ipv4.bind fun ipPkt => (l4Of pkt ipPkt).map fun l4Pkt => (ipPkt, l4Pkt)
  else none

/-- The message that sends the frame of a packet-in out of a port. -/
def packetOutMsg (msg : PacketIn) (outPort : ℕ) : OFPMsg :=
  .packetOut
    { bufferId := msg.bufferId
      inPort := msg.inPort.no
      actions := [{ port := outPort }]
      data := if msg.bufferId = OFP_NO_BUFFER then some msg.data else none }

/-- What is sent out is counted for its flow if its destination is known. -/
theorem run_sendOut (datapath : Datapath) (msg : PacketIn) (pkt : Packet) (ethPkt : Ethernet)
    (outPort : ℕ) (c : FirewallApp) :
    (sendOut datapath msg pkt ethPkt outPort).run c =
      match trustTarget? pkt ethPkt outPort with
      | none => ⟨.ok (), c, [.sendMsg datapath.id (packetOutMsg msg outPort)]⟩
      | some (ipPkt, l4Pkt) =>
        let r := (recordTrust datapath ipPkt l4Pkt msg.inPort.no outPort).run c
        ⟨r.val, r.state, .sendMsg datapath.id (packetOutMsg msg outPort) :: r.out⟩ := by
  simp only [sendOut, Prog.run_bind, run_sendMsg, Outcome.andThen_ok, trustTarget?]
  by_cases hcount : ethPkt.ethertype = ETH_TYPE_IP ∧ outPort ≠ OFPP_FLOOD
  · rw [if_pos hcount, if_pos hcount]
    cases pkt.ipv4 with
    | none => rfl
    | some ipPkt =>
        simp only [Option.bind_some]
        cases l4Of pkt ipPkt with
        | none => rfl
        | some l4Pkt => rfl
  · rw [if_neg hcount, if_neg hcount]
    rfl

/-- The learned entry a forwarded ARP frame installs. -/
def learnedMod (msg : PacketIn) (ethPkt : Ethernet) (outPort : ℕ) : OFPFlowMod :=
  addFlowMod 1 (learnedMatch msg.inPort.no ethPkt) [{ port := outPort }] 0 0
    (if msg.bufferId ≠ OFP_NO_BUFFER then some msg.bufferId else none)

/-- Is a learned entry installed for a frame that goes out of `outPort`? -/
def Learns (ethPkt : Ethernet) (outPort : ℕ) : Prop :=
  ethPkt.ethertype ≠ ETH_TYPE_IP ∧ outPort ≠ OFPP_FLOOD

instance (ethPkt : Ethernet) (outPort : ℕ) : Decidable (Learns ethPkt outPort) :=
  inferInstanceAs (Decidable (_ ∧ _))

/-- A frame whose route is learned by the switch is not counted. -/
theorem trustTarget?_of_learns {pkt : Packet} {ethPkt : Ethernet} {outPort : ℕ}
    (h : Learns ethPkt outPort) : trustTarget? pkt ethPkt outPort = none :=
  if_neg fun hc => h.1 hc.1

/-- Forwarding a frame: a learned entry for a known destination of a frame that is not IPv4, and
the frame itself unless that entry releases it, then the trust of its flow. -/
theorem run_forwardPacket (datapath : Datapath) (msg : PacketIn) (pkt : Packet)
    (ethPkt : Ethernet) (c : FirewallApp) :
    (forwardPacket datapath msg pkt ethPkt).run c =
      let c' := c.bump .allowed
      let outPort := c.outPortOf datapath.id ethPkt.dst
      if Learns ethPkt outPort then
        ⟨.ok (), c', .sendMsg datapath.id (.flowMod (learnedMod msg ethPkt outPort)) ::
          if msg.bufferId ≠ OFP_NO_BUFFER then []
          else [.sendMsg datapath.id (packetOutMsg msg outPort)]⟩
      else (sendOut datapath msg pkt ethPkt outPort).run c' := by
  simp only [forwardPacket, Prog.run_bind, Prog.run_modify, Prog.run_read, Outcome.andThen_ok,
    List.nil_append]
  have hport : (c.bump .allowed).outPortOf datapath.id ethPkt.dst =
      c.outPortOf datapath.id ethPkt.dst := rfl
  rw [hport]
  by_cases hl : Learns ethPkt (c.outPortOf datapath.id ethPkt.dst)
  · rw [if_pos hl]
    rw [Learns] at hl
    rw [if_pos hl]
    -- a learned entry that names the buffer releases the frame by itself
    by_cases hbuf : msg.bufferId ≠ OFP_NO_BUFFER
    · simp [hbuf, learnedMod]
    · simp only [hbuf, if_false, Prog.run_bind, run_addFlow, Outcome.andThen_ok, run_sendOut,
        trustTarget?_of_learns hl, learnedMod]
      rfl
  · rw [if_neg hl]
    rw [Learns] at hl
    rw [if_neg hl]

/-- The part of the state that counting and logging leave alone. -/
def FirewallApp.core (c : FirewallApp) : FirewallApp := { c with eventLog := [], stats := {} }

/-- The outward actions that no switch sees. -/
def Effect.IsBroadcast : Effect → Prop
  | .broadcast _ => True
  | .sendMsg _ _ => False

/-- A broadcast goes to no switch. -/
theorem sentTo_eq_nil_of_broadcast {os : List Effect} (h : ∀ o ∈ os, o.IsBroadcast) (d : ℕ) :
    sentTo d os = [] := by
  rw [List.eq_nil_iff_forall_not_mem]
  intro m hm
  exact h _ (mem_sentTo.mp hm)

/-- A call that at most counts, logs and broadcasts. -/
abbrev Quiet {α : Type} (p : Fw α) : Prop := p.Confined FirewallApp.core Effect.IsBroadcast

/-- Logging only broadcasts. -/
theorem log_quiet (level msg src dst extra : String) : Quiet (log level msg src dst extra) := by
  refine ⟨fun _ => rfl, fun c o ho => ?_⟩
  simp only [run_log, logOut, List.mem_cons, List.not_mem_nil, or_false] at ho
  rcases ho with rfl | rfl <;> trivial

/-- So does the account of a rejection. -/
theorem applyResult_quiet (result : CheckResult) (src dst proto : String) (port : ℕ) :
    Quiet (applyResult result src dst proto port) := by
  unfold applyResult
  split
  · exact Prog.confined_pure _
  · refine Prog.confined_bind ?_ fun _ => log_quiet ..
    unfold countResult
    split
    · exact Prog.confined_modify fun _ => rfl
    · exact Prog.confined_pure _

/-- Finding out the blocked port sends nothing at all. -/
theorem portBlockArgs_quiet (pkt : Packet) (ipPkt : IPv4) : Quiet (portBlockArgs pkt ipPkt) := by
  unfold portBlockArgs
  split
  · exact Prog.confined_bind (Prog.confined_orRaise _ _) fun _ => Prog.confined_pure _
  · split
    · exact Prog.confined_bind (Prog.confined_orRaise _ _) fun _ => Prog.confined_pure _
    · exact Prog.confined_pure _

/-- Rejecting a packet only counts and logs, and tells the switches nothing. -/
theorem rejectPacket_quiet (pkt : Packet) (ethPkt : Ethernet) (result : CheckResult) :
    Quiet (rejectPacket pkt ethPkt result) := by
  unfold rejectPacket
  split
  · exact applyResult_quiet ..
  · refine Prog.confined_bind (Prog.confined_orRaise _ _) fun ipPkt => ?_
    split
    · exact Prog.confined_bind (portBlockArgs_quiet _ _) fun _ => applyResult_quiet ..
    · exact applyResult_quiet ..

end SdnFirewall
