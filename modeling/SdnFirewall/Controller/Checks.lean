import SdnFirewall.Controller.Trust

/-!
# The checks and the protocol handlers

Each check answers with a verdict; a protocol handler runs its checks in order and stops at the
first rejection. A header the parser did not reach is `none`, and reading a field of it raises.
-/

namespace SdnFirewall

open Common OpenFlow Python

/-! ## Single checks -/

/-- `_check_ip_block`. -/
def checkIpBlock (ipSrc : String) : Fw CheckResult := do
  let c ← Prog.read
  if ipSrc ∈ c.blockedIps then pure .ipBlocked
  else if c.allowedIps ≠ ∅ ∧ ipSrc ∉ c.allowedIps then pure .ipNotAllowlist
  else pure .allowed

/-- `_check_ip_rate_limit`, at the time `now`. -/
def checkIpRateLimit (datapath : Datapath) (now : ℚ) (ipSrc : String) : Fw CheckResult := do
  let c ← Prog.read
  let tracker := ((c.rateTracker.get? ipSrc).getD []).dropWhile fun u => now - u ≥ c.rateWindow
  Prog.modify (·.setTracker ipSrc tracker)
  if (tracker.length : ℤ) ≥ c.rateLimit then
    addFlow datapath 200 (ipv4SrcMatch ipSrc) [] 10
    pure .rateLimited
  else
    Prog.modify (·.setTracker ipSrc (tracker ++ [now]))
    pure .allowed

/-- `_check_port_block`. -/
def checkPortBlock (protoNum dstPort : ℕ) : Fw CheckResult := do
  let c ← Prog.read
  if (dstPort, protoNum) ∈ c.blockedPorts then pure .portBlocked else pure .allowed

/-- ARP frames that name an address as their sender. -/
def arpSpaMatch (ip : String) : OFPMatch :=
  { ethType := some ETH_TYPE_ARP, arpSpa := some ip }

/-- `_check_arp_spoof`. -/
def checkArpSpoof (datapath : Datapath) (srcMac ipSrc : String) : Fw CheckResult := do
  let c ← Prog.read
  match c.arpTable.get? ipSrc with
  | none =>
    Prog.modify (·.bindArp ipSrc srcMac)
    pure .allowed
  | some mac =>
    if mac ≠ srcMac then
      addFlow datapath 200 (arpSpaMatch ipSrc) [] 10
      pure .arpSpoof
    else pure .allowed

def FIN : ℕ := 0x01
def SYN : ℕ := 0x02
def RST : ℕ := 0x04
def PSH : ℕ := 0x08
def URG : ℕ := 0x20

/-- `_check_tcp_flags`. -/
def checkTcpFlags (tcpPkt : Tcp) : CheckResult :=
  let bits := tcpPkt.bits
  if bits &&& (FIN ||| PSH ||| URG) = FIN ||| PSH ||| URG then .xmasScan
  else if bits = 0 then .nullScan
  else if bits &&& (SYN ||| FIN) = SYN ||| FIN then .synFin
  else if bits &&& (SYN ||| RST) = SYN ||| RST then .synRst
  else if bits = FIN then .finScan
  else .allowed

/-- `_extract_tcp_payload`. -/
def extractTcpPayload (rawFrame : Bytes) (ipPkt : IPv4) (tcpPkt : Tcp) : Bytes :=
  let start := 14 + ipPkt.headerLength * 4 + tcpPkt.offset * 4
  if start ≥ rawFrame.length then [] else rawFrame.drop start

/-- `if result.stat_key: self.stats[result.stat_key] += 1`. -/
def countResult (result : CheckResult) : Fw Unit :=
  match result.statKey with
  | some key => Prog.modify (·.bump key)
  | none => pure ()

/-- `_apply_result`: count and log a rejected packet. -/
def applyResult (result : CheckResult) (src dst proto : String) (port : ℕ) : Fw Unit :=
  if result = .dpiBlocked then pure ()
  else do
    countResult result
    log result.level (result.resolve src proto port) src dst result.extraTag

/-! ## Handlers by protocol -/

/-- The loop over a list of checks: the first rejection, or `ALLOWED`. -/
def runChecks : List (Fw CheckResult) → Fw CheckResult
  | [] => pure .allowed
  | check :: checks => do
    let result ← check
    if result ≠ .allowed then pure result else runChecks checks

/-- `icmp_packet_handler`: nothing is inspected. -/
def icmpPacketHandler : Fw CheckResult := pure .allowed

/-- `udp_packet_handler`. -/
def udpPacketHandler (udpPkt : Option Udp) : Fw CheckResult := do
  let udpPkt ← Prog.orRaise .attributeError udpPkt
  checkPortBlock 17 udpPkt.dstPort

/-- `tcp_packet_handler`. -/
def tcpPacketHandler (tcpPkt : Option Tcp) (ipPkt : IPv4) (rawFrame : Bytes) :
    Fw CheckResult := do
  let tcpPkt ← Prog.orRaise .attributeError tcpPkt
  let payload := extractTcpPayload rawFrame ipPkt tcpPkt
  runChecks [checkPortBlock 6 tcpPkt.dstPort, pure (checkTcpFlags tcpPkt),
    checkDpi ipPkt tcpPkt payload]

/-- The protocol dispatch of `ipv4_packet_handler`: other protocols are not inspected. -/
def protocolHandler (pkt : Packet) (ipPkt : IPv4) (data : Bytes) : Fw CheckResult :=
  if ipPkt.proto = IPPROTO_ICMP then icmpPacketHandler
  else if ipPkt.proto = IPPROTO_TCP then tcpPacketHandler pkt.tcp ipPkt data
  else if ipPkt.proto = IPPROTO_UDP then udpPacketHandler pkt.udp
  else pure .allowed

/-- `ipv4_packet_handler`. -/
def ipv4PacketHandler (datapath : Datapath) (now : ℚ) (data : Bytes) (ipPkt : Option IPv4) :
    Fw CheckResult := do
  let pkt := Packet.parse data
  let ipPkt ← Prog.orRaise .attributeError ipPkt
  let result ← runChecks [checkIpBlock ipPkt.src, checkIpRateLimit datapath now ipPkt.src]
  if result ≠ .allowed then pure result else protocolHandler pkt ipPkt data

/-- `arp_packet_handler`. -/
def arpPacketHandler (datapath : Datapath) (arpPkt : Option Arp) : Fw CheckResult := do
  let arpPkt ← Prog.orRaise .attributeError arpPkt
  checkArpSpoof datapath arpPkt.srcMac arpPkt.srcIp

/-! ## One undisturbed run -/

@[simp] theorem run_checkPortBlock (protoNum dstPort : ℕ) (c : FirewallApp) :
    (checkPortBlock protoNum dstPort).run c =
      ⟨.ok (if (dstPort, protoNum) ∈ c.blockedPorts then .portBlocked else .allowed), c, []⟩ := by
  simp only [checkPortBlock, Prog.run_bind, Prog.run_read, Outcome.andThen_ok]
  split <;> rfl

/-- The timestamps of a source that the window at `now` still holds. -/
def FirewallApp.window (c : FirewallApp) (now : ℚ) (ip : String) : List ℚ :=
  ((c.rateTracker.get? ip).getD []).dropWhile fun u => now - u ≥ c.rateWindow

/-- The verdict of the two source checks. -/
def FirewallApp.sourceVerdict (c : FirewallApp) (now : ℚ) (ip : String) : CheckResult :=
  if ip ∈ c.blockedIps then .ipBlocked
  else if c.allowedIps ≠ ∅ ∧ ip ∉ c.allowedIps then .ipNotAllowlist
  else if ((c.window now ip).length : ℤ) ≥ c.rateLimit then .rateLimited
  else .allowed

/-- The state the two source checks leave. -/
def FirewallApp.clocked (c : FirewallApp) (now : ℚ) (ip : String) : FirewallApp :=
  match c.sourceVerdict now ip with
  | .rateLimited => c.setTracker ip (c.window now ip)
  | .allowed => c.setTracker ip (c.window now ip ++ [now])
  | _ => c

/-- The message that makes a switch drop a source for a while. -/
def rateDropMod (ip : String) : OFPFlowMod := addFlowMod 200 (ipv4SrcMatch ip) [] 10 0 none

/-- The rate limiter keeps the window of the source, and the packet in it if it lets it pass. -/
theorem run_checkIpRateLimit (datapath : Datapath) (now : ℚ) (ip : String) (c : FirewallApp) :
    (checkIpRateLimit datapath now ip).run c =
      if ((c.window now ip).length : ℤ) ≥ c.rateLimit then
        ⟨.ok .rateLimited, c.setTracker ip (c.window now ip),
          [.sendMsg datapath.id (.flowMod (rateDropMod ip))]⟩
      else ⟨.ok .allowed, c.setTracker ip (c.window now ip ++ [now]), []⟩ := by
  simp only [checkIpRateLimit, Prog.run_bind, Prog.run_read, Prog.run_modify, Outcome.andThen_ok,
    List.nil_append]
  by_cases hrate : ((c.window now ip).length : ℤ) ≥ c.rateLimit
  · rw [if_pos hrate]
    rw [FirewallApp.window] at hrate
    simp [FirewallApp.window, hrate, rateDropMod]
  · rw [if_neg hrate]
    rw [FirewallApp.window] at hrate
    simp [FirewallApp.window, FirewallApp.setTracker, hrate]

/-- Both source checks together: the verdict, the clock of the source, and the drop entry of one
that is too fast. -/
theorem run_sourceChecks (datapath : Datapath) (now : ℚ) (ip : String) (c : FirewallApp) :
    (runChecks [checkIpBlock ip, checkIpRateLimit datapath now ip]).run c =
      ⟨.ok (c.sourceVerdict now ip), c.clocked now ip,
        if c.sourceVerdict now ip = .rateLimited then
          [.sendMsg datapath.id (.flowMod (rateDropMod ip))] else []⟩ := by
  simp only [runChecks, checkIpBlock, Prog.run_bind, Prog.run_read, Outcome.andThen_ok]
  by_cases hblocked : ip ∈ c.blockedIps
  · simp [FirewallApp.clocked, FirewallApp.sourceVerdict, hblocked]
  by_cases hlist : c.allowedIps ≠ ∅ ∧ ip ∉ c.allowedIps
  · have hv : c.sourceVerdict now ip = .ipNotAllowlist := by
      rw [FirewallApp.sourceVerdict, if_neg hblocked, if_pos hlist]
    simp [FirewallApp.clocked, hv, hblocked, hlist]
  rw [if_neg hblocked, if_neg hlist]
  simp only [Prog.run_pure, Outcome.andThen_ok, ne_eq, not_true_eq_false, if_false, Prog.run_bind,
    run_checkIpRateLimit, List.nil_append]
  by_cases hrate : ((c.window now ip).length : ℤ) ≥ c.rateLimit
  · have hv : c.sourceVerdict now ip = .rateLimited := by
      rw [FirewallApp.sourceVerdict, if_neg hblocked, if_neg hlist, if_pos hrate]
    simp [FirewallApp.clocked, hv, hrate]
  · have hv : c.sourceVerdict now ip = .allowed := by
      rw [FirewallApp.sourceVerdict, if_neg hblocked, if_neg hlist, if_neg hrate]
    simp [FirewallApp.clocked, hv, hrate]

/-- The verdicts of the two source stages. -/
def CheckResult.OfSource : CheckResult → Prop
  | .ipBlocked | .ipNotAllowlist | .rateLimited => True
  | _ => False

/-- The source checks give no verdict of another stage. -/
theorem sourceVerdict_ne (c : FirewallApp) (now : ℚ) (ip : String) {result : CheckResult}
    (hallowed : result ≠ .allowed) (hsource : ¬ result.OfSource) :
    c.sourceVerdict now ip ≠ result := by
  rintro rfl
  revert hallowed hsource
  unfold FirewallApp.sourceVerdict
  split_ifs <;> simp [CheckResult.OfSource]

/-- A source the checks let through is not blocked. -/
theorem not_mem_blockedIps_of_sourceVerdict {c : FirewallApp} {now : ℚ} {ip : String}
    (h : c.sourceVerdict now ip = .allowed) : ip ∉ c.blockedIps := by
  intro hmem
  rw [FirewallApp.sourceVerdict, if_pos hmem] at h
  exact absurd h (by decide)

/-- The source checks only touch the rate tracker. -/
theorem clocked_eq (c : FirewallApp) (now : ℚ) (ip : String) :
    ∃ tracker, c.clocked now ip = { c with rateTracker := tracker } := by
  unfold FirewallApp.clocked
  split
  · exact ⟨_, rfl⟩
  · exact ⟨_, rfl⟩
  · exact ⟨c.rateTracker, rfl⟩

/-- The verdict of the checks that come before DPI for a TCP segment. -/
def FirewallApp.segmentVerdict (c : FirewallApp) (tcpPkt : Tcp) : CheckResult :=
  if (tcpPkt.dstPort, 6) ∈ c.blockedPorts then .portBlocked else checkTcpFlags tcpPkt

/-- The verdicts of the port and flag stages. -/
def CheckResult.OfPortOrFlags : CheckResult → Prop
  | .portBlocked | .xmasScan | .nullScan | .synFin | .synRst | .finScan => True
  | _ => False

/-- A segment passes, or the port or the flags reject it. -/
theorem segmentVerdict_cases (c : FirewallApp) (tcpPkt : Tcp) :
    c.segmentVerdict tcpPkt = .allowed ∨ (c.segmentVerdict tcpPkt).OfPortOrFlags := by
  unfold FirewallApp.segmentVerdict checkTcpFlags
  dsimp only
  split_ifs <;> first | exact Or.inl rfl | exact Or.inr trivial

/-- The port and flag checks give no verdict of another stage. -/
theorem segmentVerdict_ne (c : FirewallApp) (tcpPkt : Tcp) {result : CheckResult}
    (hallowed : result ≠ .allowed) (hstage : ¬ result.OfPortOrFlags) :
    c.segmentVerdict tcpPkt ≠ result := by
  rintro rfl
  rcases segmentVerdict_cases c tcpPkt with h | h
  · exact hallowed h
  · exact hstage h

/-- A segment that passes the port and the flags goes on to inspection. -/
theorem run_tcpPacketHandler (tcpPkt : Tcp) (ipPkt : IPv4) (rawFrame : Bytes) (c : FirewallApp) :
    (tcpPacketHandler (some tcpPkt) ipPkt rawFrame).run c =
      if c.segmentVerdict tcpPkt = .allowed then
        (checkDpi ipPkt tcpPkt (extractTcpPayload rawFrame ipPkt tcpPkt)).run c
      else ⟨.ok (c.segmentVerdict tcpPkt), c, []⟩ := by
  simp only [tcpPacketHandler, Prog.run_bind, Prog.run_orRaise_some, Outcome.andThen_ok, runChecks,
    run_checkPortBlock, List.nil_append]
  by_cases hport : (tcpPkt.dstPort, 6) ∈ c.blockedPorts
  · simp [FirewallApp.segmentVerdict, hport]
  by_cases hflags : checkTcpFlags tcpPkt = .allowed
  · simp only [FirewallApp.segmentVerdict, hport, hflags, if_false, if_true, ne_eq,
      not_true_eq_false, Prog.run_bind, Prog.run_pure, Outcome.andThen_ok, List.nil_append]
    -- the loop passes the result of the last check on, whatever it is
    cases hr : (checkDpi ipPkt tcpPkt (extractTcpPayload rawFrame ipPkt tcpPkt)).run c with
    | mk val state out =>
        cases val with
        | error e => rfl
        | ok r => by_cases h : r = .allowed <;> simp [h]
  · simp [FirewallApp.segmentVerdict, hport, hflags]

/-- Protocol 6 is TCP. -/
theorem protocolHandler_tcp {pkt : Packet} {ipPkt : IPv4} (data : Bytes)
    (h : ipPkt.proto = 6) :
    protocolHandler pkt ipPkt data = tcpPacketHandler pkt.tcp ipPkt data := by
  rw [protocolHandler, h]; rfl

/-- Protocol 17 is UDP. -/
theorem protocolHandler_udp {pkt : Packet} {ipPkt : IPv4} (data : Bytes)
    (h : ipPkt.proto = 17) : protocolHandler pkt ipPkt data = udpPacketHandler pkt.udp := by
  rw [protocolHandler, h]; rfl

/-- Other protocols are let through unseen. -/
theorem protocolHandler_other {pkt : Packet} {ipPkt : IPv4} (data : Bytes)
    (htcp : ipPkt.proto ≠ 6) (hudp : ipPkt.proto ≠ 17) :
    protocolHandler pkt ipPkt data = pure .allowed := by
  have htcp' : ipPkt.proto ≠ IPPROTO_TCP := htcp
  have hudp' : ipPkt.proto ≠ IPPROTO_UDP := hudp
  rw [protocolHandler, if_neg htcp', if_neg hudp']
  split <;> rfl

/-- The message that makes a switch drop the ARP frames of an address for a while. -/
def arpDropMod (ip : String) : OFPFlowMod := addFlowMod 200 (arpSpaMatch ip) [] 10 0 none

/-- An unknown address is bound to its first claimant, and a known one only its owner may claim. -/
theorem run_checkArpSpoof (datapath : Datapath) (srcMac ipSrc : String) (c : FirewallApp) :
    (checkArpSpoof datapath srcMac ipSrc).run c =
      match c.arpTable.get? ipSrc with
      | none => ⟨.ok .allowed, c.bindArp ipSrc srcMac, []⟩
      | some mac =>
        if mac = srcMac then ⟨.ok .allowed, c, []⟩
        else ⟨.ok .arpSpoof, c, [.sendMsg datapath.id (.flowMod (arpDropMod ipSrc))]⟩ := by
  simp only [checkArpSpoof, Prog.run_bind, Prog.run_read, Outcome.andThen_ok]
  cases h : c.arpTable.get? ipSrc with
  | none => simp
  | some mac => by_cases hm : mac = srcMac <;> simp [hm, arpDropMod]

end SdnFirewall
