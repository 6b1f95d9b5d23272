import SdnFirewall.Controller.Sections
import SdnFirewall.Controller.Verdict

/-!
# Frames that do not dissect

`Packet.parse` stops where the firewall stops asking. The library goes on behind the IPv4 header,
into whatever the protocol and the ports announce, and a parser there may raise: the handler then
ends before any check. Here the outcome of `packet.Packet` is a parameter, and nothing is assumed of
it.
-/

namespace SdnFirewall

open Common OpenFlow Python

/-- `packet.Packet(data)`: what `get_protocol` finds afterwards, or what a parser raised. -/
abbrev Dissector := Bytes → Except Exc Packet

namespace Dissector

/-- The parser that stops where the firewall stops asking. -/
def plain : Dissector := fun data => .ok (Packet.parse data)

variable (dissect : Dissector)

/-- `ipv4_packet_handler`, which dissects the frame a second time. -/
def ipv4PacketHandler (datapath : Datapath) (now : ℚ) (data : Bytes) (ipPkt : Option IPv4) :
    Fw CheckResult := do
  let pkt ← Prog.ofExcept (dissect data)
  let ipPkt ← Prog.orRaise .attributeError ipPkt
  let result ← runChecks [checkIpBlock ipPkt.src, checkIpRateLimit datapath now ipPkt.src]
  if result ≠ .allowed then pure result else protocolHandler pkt ipPkt data

/-- The filtering area. -/
def filterArea (datapath : Datapath) (now : ℚ) (data : Bytes) (pkt : Packet) (ethPkt : Ethernet) :
    Fw (Option CheckResult) := do
  if ethPkt.ethertype = ETH_TYPE_IP then
    let result ← dissect.ipv4PacketHandler datapath now data pkt.ipv4
    pure (some result)
  else if ethPkt.ethertype = ETH_TYPE_ARP then
    let result ← arpPacketHandler datapath pkt.arp
    pure (some result)
  else pure none

/-- `_packet_in_handler`. -/
def packetInHandler (datapath : Datapath) (now : ℚ) (msg : PacketIn) : Fw Unit := do
  if msg.data = [] then pure ()
  else if msg.msgLen < msg.totalLen then pure ()
  else
    let pkt ← Prog.ofExcept (dissect msg.data)
    let ethPkt ← Prog.orRaise .attributeError pkt.ethernet
    let result ← dissect.filterArea datapath now msg.data pkt ethPkt
    match result with
    | none => pure ()
    | some result => outcomeArea datapath msg pkt ethPkt result

/-- The headers the handler goes on with: those of a frame that passes its guards and dissects. -/
def headers? (msg : PacketIn) : Option (Packet × Ethernet) :=
  if msg.data = [] ∨ msg.msgLen < msg.totalLen then none
  else (dissect msg.data).toOption.bind fun pkt => pkt.ethernet.map fun ethPkt => (pkt, ethPkt)

/-- The verdict on a packet-in; `none` when the frame is incomplete, ignored or not dissected. -/
def verdict? (c : FirewallApp) (datapath : Datapath) (now : ℚ) (msg : PacketIn) :
    Option CheckResult :=
  (dissect.headers? msg).bind fun (pkt, ethPkt) =>
    ((dissect.filterArea datapath now msg.data pkt ethPkt).run c).val.toOption.join

end Dissector

/-! ## The parser that never raises -/

/-- With the plain parser the handler is the one that parses. -/
theorem packetInHandler_plain (datapath : Datapath) (now : ℚ) (msg : PacketIn) :
    Dissector.plain.packetInHandler datapath now msg = packetInHandler datapath now msg := rfl

section Handler

variable {dissect : Dissector} {datapath : Datapath} {now : ℚ} {msg : PacketIn}

/-- The handler goes on with the headers of a frame that passes both guards and dissects. -/
theorem headers?_eq_some {pkt : Packet} {ethPkt : Ethernet} :
    dissect.headers? msg = some (pkt, ethPkt) ↔
      msg.Proceeds ∧ dissect msg.data = .ok pkt ∧ pkt.ethernet = some ethPkt := by
  rw [Dissector.headers?, PacketIn.Proceeds, ← not_or]
  by_cases hguard : msg.data = [] ∨ msg.msgLen < msg.totalLen
  · rw [if_pos hguard]
    simp [hguard]
  · rw [if_neg hguard, and_iff_right hguard]
    cases dissect msg.data with
    | error e => simp [Except.toOption]
    | ok pkt' =>
        simp only [Except.toOption, Option.bind_some, Option.map_eq_some_iff, Prod.mk.injEq,
          Except.ok.injEq]
        constructor
        · rintro ⟨ethPkt', heth, rfl, rfl⟩
          exact ⟨rfl, heth⟩
        · rintro ⟨rfl, heth⟩
          exact ⟨ethPkt, heth, rfl, rfl⟩

/-- A frame that a parser raises on leaves no trace. -/
theorem run_packetInHandler_of_error {e : Exc} (h : dissect msg.data = .error e)
    (datapath : Datapath) (now : ℚ) (c : FirewallApp) :
    ((dissect.packetInHandler datapath now msg).run c).state = c ∧
      ((dissect.packetInHandler datapath now msg).run c).out = [] := by
  unfold Dissector.packetInHandler
  split
  · exact ⟨rfl, rfl⟩
  split
  · exact ⟨rfl, rfl⟩
  · rw [h]
    exact ⟨rfl, rfl⟩

/-- A frame is handled as the plain parser would have it, if that is what its headers are. -/
theorem packetInHandler_of_parse (h : dissect msg.data = .ok (Packet.parse msg.data)) :
    dissect.packetInHandler datapath now msg = packetInHandler datapath now msg := by
  rw [← packetInHandler_plain]
  unfold Dissector.packetInHandler Dissector.filterArea Dissector.ipv4PacketHandler
  rw [h]
  rfl

/-- Whatever the headers say, the handler leaves the connections and the rules alone. -/
theorem dissectedHandler_local (dissect : Dissector) (datapath : Datapath) (now : ℚ)
    (msg : PacketIn) : Local datapath.id (dissect.packetInHandler datapath now msg) := by
  unfold Dissector.packetInHandler
  split
  · exact Prog.framed_pure _
  split
  · exact Prog.framed_pure _
  refine Prog.framed_bind (Prog.framed_ofExcept _) fun pkt => ?_
  refine Prog.framed_bind (Prog.framed_orRaise _ _) fun ethPkt => ?_
  refine Prog.framed_bind ?_ fun result => ?_
  -- the dissector may raise twice: on the frame, and behind the IPv4 header
  · unfold Dissector.filterArea
    split
    · refine Prog.framed_bind ?_ fun _ => Prog.framed_pure _
      refine Prog.framed_bind (Prog.framed_ofExcept _) fun pkt => ?_
      refine Prog.framed_bind (Prog.framed_orRaise _ _) fun ipPkt => ?_
      refine Prog.framed_bind (sourceChecks_local ..) fun result => ?_
      split
      · exact Prog.framed_pure _
      · exact protocolHandler_local ..
    split
    · refine Prog.framed_bind ?_ fun _ => Prog.framed_pure _
      exact Prog.framed_bind (Prog.framed_orRaise _ _) fun _ => checkArpSpoof_local ..
    · exact Prog.framed_pure _
  · split
    · exact Prog.framed_pure _
    · exact outcomeArea_local ..

end Handler

/-! ## The verdict on an IPv4 packet -/

/-- The verdict behind the source checks; `none` when the TCP or UDP header a check needs is
missing. -/
def FirewallApp.protocolVerdict? (c : FirewallApp) (pkt : Packet) (ipPkt : IPv4) (data : Bytes) :
    Option CheckResult :=
  if ipPkt.proto = 6 then
    pkt.tcp.map fun tcpPkt =>
      if c.segmentVerdict tcpPkt ≠ .allowed then c.segmentVerdict tcpPkt
      else if ((DpiCall.mk ipPkt tcpPkt (extractTcpPayload data ipPkt tcpPkt)).after c).blocked then
        .dpiBlocked
      else .allowed
  else if ipPkt.proto = 17 then
    pkt.udp.map fun udpPkt =>
      if (udpPkt.dstPort, 17) ∈ c.blockedPorts then .portBlocked else .allowed
  else some .allowed

/-- The verdict on an IPv4 packet. -/
def FirewallApp.ipv4Verdict? (c : FirewallApp) (now : ℚ) (pkt : Packet) (ipPkt : IPv4)
    (data : Bytes) : Option CheckResult :=
  if c.sourceVerdict now ipPkt.src ≠ .allowed then some (c.sourceVerdict now ipPkt.src)
  else c.protocolVerdict? pkt ipPkt data

section Verdict

variable {c : FirewallApp} {pkt : Packet} {ipPkt : IPv4} {data : Bytes}

/-- The protocol handlers find the verdict behind the source checks. -/
theorem toOption_protocolHandler (c : FirewallApp) (pkt : Packet) (ipPkt : IPv4) (data : Bytes) :
    ((protocolHandler pkt ipPkt data).run c).val.toOption = c.protocolVerdict? pkt ipPkt data := by
  unfold FirewallApp.protocolVerdict?
  by_cases htcp : ipPkt.proto = 6
  · rw [protocolHandler_tcp data htcp, if_pos htcp]
    cases pkt.tcp with
    | none => rfl
    | some tcpPkt =>
        rw [run_tcpPacketHandler, Option.map_some]
        -- inspection itself never raises
        by_cases hseg : c.segmentVerdict tcpPkt = .allowed
        · obtain ⟨state, out, hrun, -, -⟩ :=
            checkDpi_spec ⟨ipPkt, tcpPkt, extractTcpPayload data ipPkt tcpPkt⟩ c
          rw [if_pos hseg, if_neg (not_not.mpr hseg), hrun]
          rfl
        · rw [if_neg hseg, if_pos hseg]
          rfl
  rw [if_neg htcp]
  by_cases hudp : ipPkt.proto = 17
  · rw [protocolHandler_udp data hudp, if_pos hudp]
    cases pkt.udp with
    | none => rfl
    | some udpPkt =>
        simp only [udpPacketHandler, Prog.run_bind, Prog.run_orRaise_some, Outcome.andThen_ok,
          run_checkPortBlock, Option.map_some]
        rfl
  · rw [protocolHandler_other data htcp hudp, if_neg hudp]
    rfl

/-- The source checks leave the verdict behind them as it was. -/
theorem protocolVerdict?_clocked (now : ℚ) (ip : String) :
    (c.clocked now ip).protocolVerdict? pkt ipPkt data = c.protocolVerdict? pkt ipPkt data := by
  have hports : (c.clocked now ip).blockedPorts = c.blockedPorts := by
    obtain ⟨t, ht⟩ := clocked_eq c now ip
    rw [ht]
  have hseg : ∀ tcpPkt, (c.clocked now ip).segmentVerdict tcpPkt = c.segmentVerdict tcpPkt := by
    intro tcpPkt
    rw [FirewallApp.segmentVerdict, FirewallApp.segmentVerdict, hports]
  unfold FirewallApp.protocolVerdict?
  simp only [hseg, hports, DpiCall.after_clocked]

/-- The handler of IPv4 finds the verdict on the packet, if the frame dissects. -/
theorem toOption_ipv4PacketHandler {dissect : Dissector} (h : dissect data = .ok pkt)
    (datapath : Datapath) (now : ℚ) (ipPkt? : Option IPv4) (c : FirewallApp) :
    ((dissect.ipv4PacketHandler datapath now data ipPkt?).run c).val.toOption =
      ipPkt?.bind fun ipPkt => c.ipv4Verdict? now pkt ipPkt data := by
  rw [Dissector.ipv4PacketHandler, h]
  cases ipPkt? with
  | none => rfl
  | some ipPkt =>
      simp only [Prog.run_bind, Prog.run_ofExcept_ok, Prog.run_orRaise_some, Outcome.andThen_ok,
        run_sourceChecks, Option.bind_some, FirewallApp.ipv4Verdict?]
      by_cases hsrc : c.sourceVerdict now ipPkt.src = .allowed
      · rw [if_neg (not_not.mpr hsrc), if_neg (not_not.mpr hsrc), toOption_protocolHandler,
          protocolVerdict?_clocked]
      · rw [if_pos hsrc, if_pos hsrc]
        rfl

/-- The source stage decides an IPv4 packet exactly when it rejects the source. -/
theorem ipv4Verdict?_ofSource {now : ℚ} {result : CheckResult} (hresult : result.OfSource) :
    c.ipv4Verdict? now pkt ipPkt data = some result ↔ c.sourceVerdict now ipPkt.src = result := by
  have hallowed : result ≠ .allowed := by rintro rfl; exact hresult
  unfold FirewallApp.ipv4Verdict?
  by_cases hsrc : c.sourceVerdict now ipPkt.src = .allowed
  swap
  · rw [if_pos hsrc, Option.some.injEq]
  rw [if_neg (not_not.mpr hsrc), hsrc]
  refine ⟨fun h => ?_, fun h => absurd h.symm hallowed⟩
  -- the checks behind the source stage have verdicts of their own
  have hport : ¬ result.OfPortOrFlags := by cases result <;> simp_all [CheckResult.OfSource,
    CheckResult.OfPortOrFlags]
  have hdpi : result ≠ .dpiBlocked := by rintro rfl; exact hresult
  have hblocked : result ≠ .portBlocked := by rintro rfl; exact hresult
  unfold FirewallApp.protocolVerdict? at h
  split at h
  · obtain ⟨tcpPkt, -, h⟩ := Option.map_eq_some_iff.mp h
    split_ifs at h
    · exact absurd h (segmentVerdict_ne c tcpPkt hallowed hport)
    · exact absurd h.symm hdpi
    · exact h
  · split at h
    · obtain ⟨udpPkt, -, h⟩ := Option.map_eq_some_iff.mp h
      split_ifs at h
      · exact absurd h.symm hblocked
      · exact h
    · exact Option.some.inj h

/-- A blocked port is found before the flags are looked at. -/
theorem segmentVerdict_eq_portBlocked {tcpPkt : Tcp} :
    c.segmentVerdict tcpPkt = .portBlocked ↔ (tcpPkt.dstPort, 6) ∈ c.blockedPorts := by
  unfold FirewallApp.segmentVerdict checkTcpFlags
  by_cases hmem : (tcpPkt.dstPort, 6) ∈ c.blockedPorts
  · simp [hmem]
  · rw [if_neg hmem, iff_false_right hmem]
    dsimp only
    split_ifs <;> simp

/-- A blocked port decides an IPv4 packet whose source passes. -/
theorem ipv4Verdict?_portBlocked {now : ℚ} :
    c.ipv4Verdict? now pkt ipPkt data = some .portBlocked ↔
      c.sourceVerdict now ipPkt.src = .allowed ∧ ∃ l4Pkt,
        l4Of pkt ipPkt = some l4Pkt ∧ (l4Pkt.dstPort, ipPkt.proto) ∈ c.blockedPorts := by
  unfold FirewallApp.ipv4Verdict? FirewallApp.protocolVerdict? l4Of
  by_cases hsrc : c.sourceVerdict now ipPkt.src = .allowed
  swap
  · have hne : c.sourceVerdict now ipPkt.src ≠ .portBlocked :=
      sourceVerdict_ne c now ipPkt.src (by decide) id
    simp [hsrc, hne]
  rw [if_neg (not_not.mpr hsrc), and_iff_right hsrc]
  by_cases htcp : ipPkt.proto = 6
  -- for TCP the port is checked before the flags and the payload
  · rw [if_pos htcp, if_pos htcp, htcp]
    simp only [Option.map_eq_some_iff, exists_exists_and_eq_and]
    refine exists_congr fun tcpPkt => and_congr_right fun _ => ?_
    refine Iff.trans ?_ segmentVerdict_eq_portBlocked
    by_cases hseg : c.segmentVerdict tcpPkt = .allowed
    · rw [if_neg (not_not.mpr hseg), hseg]
      split_ifs <;> simp
    · rw [if_pos hseg]
  · rw [if_neg htcp, if_neg htcp]
    by_cases hudp : ipPkt.proto = 17
    · rw [if_pos hudp, if_pos hudp, hudp]
      simp only [Option.map_eq_some_iff, exists_exists_and_eq_and]
      refine exists_congr fun udpPkt => and_congr_right fun _ => ?_
      show _ ↔ (udpPkt.dstPort, 17) ∈ c.blockedPorts
      by_cases hmem : (udpPkt.dstPort, 17) ∈ c.blockedPorts <;> simp [hmem]
    · simp [hudp]

end Verdict

section PacketIn

variable {dissect : Dissector} {datapath : Datapath} {now : ℚ} {msg : PacketIn} {c : FirewallApp}

/-- The check of ARP frames gives no verdict of another stage. -/
theorem toOption_arpPacketHandler {arpPkt? : Option Arp} {result : CheckResult}
    (hallowed : result ≠ .allowed) (hspoof : result ≠ .arpSpoof) :
    ((arpPacketHandler datapath arpPkt?).run c).val.toOption ≠ some result := by
  cases arpPkt? with
  | none => exact nofun
  | some arpPkt =>
      simp only [arpPacketHandler, Prog.run_bind, Prog.run_orRaise_some, Outcome.andThen_ok,
        run_checkArpSpoof]
      split
      · exact fun h => hallowed (Option.some.inj h).symm
      · split
        · exact fun h => hallowed (Option.some.inj h).symm
        · exact fun h => hspoof (Option.some.inj h).symm

/-- A verdict but that of ARP is the verdict on an IPv4 packet. -/
theorem dissected_verdict?_iff {result : CheckResult} (hallowed : result ≠ .allowed)
    (hspoof : result ≠ .arpSpoof) :
    dissect.verdict? c datapath now msg = some result ↔ msg.Proceeds ∧
      ∃ pkt ethPkt ipPkt, dissect msg.data = .ok pkt ∧ pkt.ethernet = some ethPkt ∧
        ethPkt.ethertype = ETH_TYPE_IP ∧ pkt.ipv4 = some ipPkt ∧
        c.ipv4Verdict? now pkt ipPkt msg.data = some result := by
  -- the last step of either protocol only wraps its verdict
  have hjoin : ∀ r : FwOutcome CheckResult, (r.andThen fun result s =>
      (pure (some result) : Fw (Option CheckResult)).run s).val.toOption.join =
        r.val.toOption := by
    intro r
    rw [andThen_some]
    cases r.val <;> rfl
  have harea : ∀ pkt ethPkt, dissect msg.data = .ok pkt →
      (((dissect.filterArea datapath now msg.data pkt ethPkt).run c).val.toOption.join =
          some result ↔
        ethPkt.ethertype = ETH_TYPE_IP ∧ ∃ ipPkt, pkt.ipv4 = some ipPkt ∧
          c.ipv4Verdict? now pkt ipPkt msg.data = some result) := by
    intro pkt ethPkt hdissect
    unfold Dissector.filterArea
    by_cases hip : ethPkt.ethertype = ETH_TYPE_IP
    · rw [if_pos hip, and_iff_right hip, Prog.run_bind, hjoin, toOption_ipv4PacketHandler hdissect,
        Option.bind_eq_some_iff]
    rw [if_neg hip, iff_false_right (fun h => hip h.1)]
    by_cases harp : ethPkt.ethertype = ETH_TYPE_ARP
    · rw [if_pos harp, Prog.run_bind, hjoin]
      exact toOption_arpPacketHandler hallowed hspoof
    · rw [if_neg harp]
      exact nofun
  rw [Dissector.verdict?, Option.bind_eq_some_iff]
  constructor
  · rintro ⟨⟨pkt, ethPkt⟩, hheaders, hv⟩
    obtain ⟨hproceeds, hdissect, heth⟩ := headers?_eq_some.mp hheaders
    obtain ⟨htype, ipPkt, hip, hv⟩ := (harea pkt ethPkt hdissect).mp hv
    exact ⟨hproceeds, pkt, ethPkt, ipPkt, hdissect, heth, htype, hip, hv⟩
  · rintro ⟨hproceeds, pkt, ethPkt, ipPkt, hdissect, heth, htype, hip, hv⟩
    exact ⟨(pkt, ethPkt), headers?_eq_some.mpr ⟨hproceeds, hdissect, heth⟩,
      (harea pkt ethPkt hdissect).mpr ⟨htype, ipPkt, hip, hv⟩⟩

end PacketIn

end SdnFirewall
