import SdnFirewall.Packet.Mininet
import SdnFirewall.System.Lookup

/-!
# Blocked addresses and ports

Both kinds of rules are enforced by a check on the packet, by the flush when the rule is made, and
by what the trust installer writes. The check looks at one side of a packet, the installer writes
both directions: the mirrored entry is sourced from the unchecked address, and is directed to the
unchecked port. The rules hold exactly in the runs in which no such entry is written.
-/

namespace SdnFirewall

open Common OpenFlow Python

namespace World

/-! ## The trust entries of a step -/

/-- The event completes the trust of a flow that `bad` objects to. -/
def TrustsBad (w : World) (bad : IPv4 → L4 → Prop) (ev : Event) : Prop :=
  ∃ d now msg ipPkt l4Pkt, ev = .packetIn d now msg ∧ w.ctl.Grants d now msg ipPkt l4Pkt ∧
    bad ipPkt l4Pkt

/-- A trust entry that is found after an event was there before, or comes from a packet that
completed its trust: it is the direction of that packet or the mirrored one. -/
theorem trust_step {compile : ReCompile} {w : World} (hw : w.Sound) {ev : Event} {d : ℕ}
    {e : FlowEntry} (he : e ∈ (w.step compile ev).tables d) (hp : e.priority = 400) :
    e ∈ w.tables d ∨ ∃ now msg ipPkt l4Pkt, ev = .packetIn d now msg ∧
      w.ctl.Grants d now msg ipPkt l4Pkt ∧
      (e.ofMatch = trustMatch ipPkt.proto (ipPkt.src, l4Pkt.srcPort) (ipPkt.dst, l4Pkt.dstPort) ∨
        e.ofMatch =
          trustMatch ipPkt.proto (ipPkt.dst, l4Pkt.dstPort) (ipPkt.src, l4Pkt.srcPort)) := by
  rcases mem_step hw.keyed he with he | he
  · exact Or.inl he
  · cases he with
    | miss | catchAll | refill | rateDrop | arpDrop | learned => simp at hp
    | forward now msg ip l4 outPort hg => exact Or.inr ⟨now, msg, ip, l4, rfl, hg, Or.inl rfl⟩
    | reverse now msg ip l4 hg => exact Or.inr ⟨now, msg, ip, l4, rfl, hg, Or.inr rfl⟩

/-- A packet that completes its trust leaves the mirrored entry in the table, and the rules as they
are. -/
theorem mirror_mem_of_grants (compile : ReCompile) {w : World} (hk : w.ctl.Keyed) {d : ℕ}
    {now : ℚ} {msg : PacketIn} {ipPkt : IPv4} {l4Pkt : L4}
    (hg : w.ctl.Grants d now msg ipPkt l4Pkt) :
    trustFlowEntry ipPkt.proto (ipPkt.dst, l4Pkt.dstPort) (ipPkt.src, l4Pkt.srcPort)
        msg.inPort.no ∈ (w.step compile (.packetIn d now msg)).tables d ∧
      (w.step compile (.packetIn d now msg)).ctl.blockedIps = w.ctl.blockedIps ∧
      (w.step compile (.packetIn d now msg)).ctl.blockedPorts = w.ctl.blockedPorts := by
  obtain ⟨c', ms, hact, hcore, -, htables⟩ := step_spec compile hk (.packetIn d now msg)
  obtain ⟨outPort, hsent⟩ := sends_of_grants hact hg
  have hips := congrArg (fun c => c.blockedIps) hcore
  have hports := congrArg (fun c => c.blockedPorts) hcore
  refine ⟨?_, ?_, ?_⟩
  · rw [htables, hsent, if_pos rfl]
    exact FlowTable.mem_add_self _ _
  · cases hact with
    | unheard | ignored => exact hips
    | rejected | allowed => exact hips.trans (by simp [FirewallApp.core])
  · cases hact with
    | unheard | ignored => exact hports
    | rejected | allowed => exact hports.trans (by simp [FirewallApp.core])

/-! ## Blocked addresses -/

/-- A blocked address stays blocked: no trust entry is sourced from it, no packet-in of it makes
the controller send a frame out, and no switch forwards a frame of it. -/
def BlocksSources (compile : ReCompile) (w : World) : Prop :=
  ∀ ip ∈ w.ctl.blockedIps,
    (∀ d, ∀ e ∈ w.tables d, e.priority = 400 → e.ofMatch.ipv4Src ≠ some ip) ∧
    (∀ d now msg ipPkt, (Packet.parse msg.data).ipv4 = some ipPkt → ipPkt.src = ip →
      ∀ d', ∀ m ∈ w.sends compile (.packetIn d now msg) d', ¬ m.Outputs) ∧
    ∀ d k, k.ethType = some ETH_TYPE_IP → k.ipv4Src = some ip → ¬ (w.tables d).Forwards k

/-- The event completes the trust of a flow towards a blocked address. -/
def TrustsBlockedIp (w : World) (ev : Event) : Prop :=
  w.TrustsBad (fun ipPkt _ => ipPkt.dst ∈ w.ctl.blockedIps) ev

/-- No trust entry is sourced from a blocked address. -/
def NoBlockedSource (w : World) : Prop :=
  ∀ ip ∈ w.ctl.blockedIps, ∀ d, ∀ e ∈ w.tables d, e.priority = 400 → e.ofMatch.ipv4Src ≠ some ip

/-- An event that trusts no blocked address leaves no trust entry for the frames of one. -/
theorem noBlockedSource_step {compile : ReCompile} {w : World} {ev : Event} (hw : w.Sound)
    (hI : w.NoBlockedSource) (hev : ¬ w.TrustsBlockedIp ev) :
    (w.step compile ev).NoBlockedSource := by
  intro ip hip d e he hp hsrc
  have hkind := ((sound_step hw ev).known d e he).trust_of_priority hp
  rcases hw.flushed_ip hip with hold | hflushed
  · rcases trust_step hw he hp with he | ⟨now, msg, ipPkt, l4Pkt, rfl, hg, hm | hm⟩
    · exact hI ip hold d e he hp hsrc
    · -- the packet's own direction: its source has passed the check
      rw [hm, trustMatch_ipv4Src] at hsrc
      obtain rfl : ipPkt.src = ip := by simpa using hsrc
      obtain ⟨-, hv, ethPkt, heth, htarget, -⟩ := hg
      obtain ⟨-, -, hipv4, -⟩ := trustTarget?_eq_some.mp htarget
      exact not_mem_blockedIps_of_sourceVerdict (passed_of_allowed hv hipv4).1 hold
    · -- the mirrored direction: its source is the packet's destination
      rw [hm, trustMatch_ipv4Src] at hsrc
      obtain rfl : ipPkt.dst = ip := by simpa using hsrc
      exact hev ⟨d, now, msg, ipPkt, l4Pkt, rfl, hg, hold⟩
  · obtain ⟨proto, src, dst, port, -, rfl⟩ := hkind
    refine (hflushed d _ he).1 ?_
    simp only [trustFlowEntry_ofMatch, trustMatch_ipv4Src, Option.some.injEq] at hsrc
    simp [OFPMatch.Covers, ipv4SrcMatch, hsrc]

/-- Where no trust entry is sourced from a blocked address, blocked addresses stay blocked. -/
theorem blocksSources_of_noBlockedSource (compile : ReCompile) {w : World} (hw : w.Sound)
    (hI : w.NoBlockedSource) : w.BlocksSources compile := by
  intro ip hip
  refine ⟨fun d e he hp => hI ip hip d e he hp, ?_, ?_⟩
  · intro d now msg ipPkt hipv4 hsrc d' m hm hout
    obtain ⟨-, hv⟩ := verdictOf?_eq_some.mp (allowed_of_sends hw.keyed hm hout)
    have hpassed := (passed_of_allowed hv hipv4).1
    rw [hsrc] at hpassed
    exact not_mem_blockedIps_of_sourceVerdict hpassed hip
  · intro d k htype hsrc hfwd
    obtain ⟨proto, src, dst, port, -, hmem, hcov⟩ := hw.forwards_ipv4 htype hfwd
    have hf := hcov.2.2.2.2.2.1
    rw [trustMatch_ipv4Src, fieldCovers_some, hsrc] at hf
    exact hI ip hip d _ hmem rfl (by simpa using hf.symm)

/-- Blocked addresses stay blocked, at every moment of a run, exactly when no packet of the run
completes the trust of a flow towards a blocked address. -/
theorem blocksSources_iff (compile : ReCompile) (dpi : DPIEngine) (evs : List Event) :
    (∀ n, (run compile dpi (evs.take n)).BlocksSources compile) ↔
      Along (step compile) (fun w ev => ¬ w.TrustsBlockedIp ev) (init dpi) evs := by
  refine forall_take_iff_along (fun w => w.Sound ∧ w.NoBlockedSource) _ ?_ ?_ ?_ ?_ evs
  · exact fun w ev hw hev => ⟨sound_step hw.1 ev, noBlockedSource_step hw.1 hw.2 hev⟩
  · exact fun w hw => blocksSources_of_noBlockedSource compile hw.1 hw.2
  · rintro w ev ⟨hw, -⟩ hev hgood
    obtain ⟨d, now, msg, ipPkt, l4Pkt, rfl, hg, hblocked⟩ := not_not.mp hev
    obtain ⟨hmem, hips, -⟩ := mirror_mem_of_grants compile hw.keyed hg
    rw [← hips] at hblocked
    exact (hgood _ hblocked).1 d _ hmem rfl (by simp)
  · exact ⟨sound_init dpi, fun ip hip => absurd hip (Finset.notMem_empty ip)⟩

/-- Host 2 is blocked, and then host 1 sends it five datagrams. -/
def blockedReceiverRun : List Event :=
  [.handshake 1, .rest (.addBlockedIp "10.0.0.2"),
    .packetIn 1 0 (packetInFrom 2 (arpFrame 2 1 2))] ++
    List.replicate 5 (.packetIn 1 0 (packetInFrom 1 (udpFrame 1 2 100 53)))

/-- The fifth datagram leaves an entry that forwards the frames of the blocked host 2. -/
theorem not_blocksSources_blockedReceiverRun :
    ¬ (run builtinCompile builtinEngine blockedReceiverRun).BlocksSources builtinCompile := by
  intro h
  have hblocked : "10.0.0.2" ∈
      (run builtinCompile builtinEngine blockedReceiverRun).ctl.blockedIps := by
    decide +kernel
  have hmem : trustFlowEntry 17 ("10.0.0.2", 53) ("10.0.0.1", 100) 2 ∈
      (run builtinCompile builtinEngine blockedReceiverRun).tables 1 := by
    decide +kernel
  exact (h _ hblocked).1 1 _ hmem rfl rfl

/-! ## Blocked ports -/

/-- A blocked port stays blocked: no trust entry leads to it, no packet-in to it makes the
controller send a frame out, and no switch forwards a frame to it. -/
def BlocksPorts (compile : ReCompile) (w : World) : Prop :=
  ∀ port proto, (port, proto) ∈ w.ctl.blockedPorts → proto = 6 ∨ proto = 17 →
    (∀ d, ∀ e ∈ w.tables d, e.priority = 400 →
      ¬ (e.ofMatch.ipProto = some proto ∧ e.ofMatch.dstPort proto = some port)) ∧
    (∀ d now msg ipPkt l4Pkt, (Packet.parse msg.data).ipv4 = some ipPkt →
      l4Of (Packet.parse msg.data) ipPkt = some l4Pkt → ipPkt.proto = proto →
      l4Pkt.dstPort = port →
      ∀ d', ∀ m ∈ w.sends compile (.packetIn d now msg) d', ¬ m.Outputs) ∧
    ∀ d k, k.ethType = some ETH_TYPE_IP → k.ipProto = some proto → k.dstPort proto = some port →
      ¬ (w.tables d).Forwards k

/-- The event completes the trust of a flow from a blocked port. -/
def TrustsBlockedPort (w : World) (ev : Event) : Prop :=
  w.TrustsBad (fun ipPkt l4Pkt => (l4Pkt.srcPort, ipPkt.proto) ∈ w.ctl.blockedPorts) ev

/-- No trust entry leads to a blocked port. -/
def NoBlockedPort (w : World) : Prop :=
  ∀ port proto, (port, proto) ∈ w.ctl.blockedPorts → proto = 6 ∨ proto = 17 → ∀ d,
    ∀ e ∈ w.tables d, e.priority = 400 →
      ¬ (e.ofMatch.ipProto = some proto ∧ e.ofMatch.dstPort proto = some port)

/-- An event that trusts no blocked port leaves no trust entry for the frames to one. -/
theorem noBlockedPort_step {compile : ReCompile} {w : World} {ev : Event} (hw : w.Sound)
    (hI : w.NoBlockedPort) (hev : ¬ w.TrustsBlockedPort ev) :
    (w.step compile ev).NoBlockedPort := by
  rintro port proto hrule hproto d e he hp ⟨hipProto, hport⟩
  have hkind := ((sound_step hw ev).known d e he).trust_of_priority hp
  rcases hw.flushed_port hrule with hold | hflushed
  · rcases trust_step hw he hp with he | ⟨now, msg, ipPkt, l4Pkt, rfl, hg, hm | hm⟩
    · exact hI port proto hold hproto d e he hp ⟨hipProto, hport⟩
    · -- the packet's own direction: its destination port has passed the check
      rw [hm, trustMatch_ipProto] at hipProto
      obtain rfl : ipPkt.proto = proto := by simpa using hipProto
      rw [hm, trustMatch_dstPort] at hport
      obtain rfl : l4Pkt.dstPort = port := by simpa using hport
      obtain ⟨-, hv, ethPkt, heth, htarget, -⟩ := hg
      obtain ⟨-, -, hipv4, hl4⟩ := trustTarget?_eq_some.mp htarget
      exact (passed_of_allowed hv hipv4).2 l4Pkt hl4 hold
    · -- the mirrored direction: its destination port is the packet's source port
      rw [hm, trustMatch_ipProto] at hipProto
      obtain rfl : ipPkt.proto = proto := by simpa using hipProto
      rw [hm, trustMatch_dstPort] at hport
      obtain rfl : l4Pkt.srcPort = port := by simpa using hport
      exact hev ⟨d, now, msg, ipPkt, l4Pkt, rfl, hg, hold⟩
  · obtain ⟨proto', src, dst, out, -, rfl⟩ := hkind
    simp only [trustFlowEntry_ofMatch, trustMatch_ipProto, Option.some.injEq] at hipProto
    subst hipProto
    simp only [trustFlowEntry_ofMatch, trustMatch_dstPort, Option.some.injEq] at hport
    subst hport
    -- the port was blocked just now, and the flush has deleted the entry
    rcases hproto with rfl | rfl
    · refine hflushed d _ he _ rfl ?_
      simp [OFPMatch.Covers, trustMatch]
    · refine hflushed d _ he _ rfl ?_
      simp [OFPMatch.Covers, trustMatch]

/-- Where no trust entry leads to a blocked port, blocked ports stay blocked. -/
theorem blocksPorts_of_noBlockedPort (compile : ReCompile) {w : World} (hw : w.Sound)
    (hI : w.NoBlockedPort) : w.BlocksPorts compile := by
  intro port proto hrule hproto
  refine ⟨fun d e he hp => hI port proto hrule hproto d e he hp, ?_, ?_⟩
  · rintro d now msg ipPkt l4Pkt hipv4 hl4 rfl rfl d' m hm hout
    obtain ⟨-, hv⟩ := verdictOf?_eq_some.mp (allowed_of_sends hw.keyed hm hout)
    exact (passed_of_allowed hv hipv4).2 l4Pkt hl4 hrule
  · intro d k htype hipProto hport hfwd
    obtain ⟨proto', src, dst, out, -, hmem, hcov⟩ := hw.forwards_ipv4 htype hfwd
    have hf := hcov.2.2.2.2.1
    rw [trustMatch_ipProto, fieldCovers_some, hipProto] at hf
    obtain rfl : proto = proto' := by simpa using hf
    have hdst := hcov.dstPort_eq (trustMatch_dstPort proto src dst)
    rw [hport] at hdst
    refine hI port proto hrule hproto d _ hmem rfl ⟨trustMatch_ipProto .., ?_⟩
    rw [trustFlowEntry_ofMatch, trustMatch_dstPort]
    exact hdst.symm

/-- Blocked ports stay blocked, at every moment of a run, exactly when no packet of the run
completes the trust of a flow from a blocked port. -/
theorem blocksPorts_iff (compile : ReCompile) (dpi : DPIEngine) (evs : List Event) :
    (∀ n, (run compile dpi (evs.take n)).BlocksPorts compile) ↔
      Along (step compile) (fun w ev => ¬ w.TrustsBlockedPort ev) (init dpi) evs := by
  refine forall_take_iff_along (fun w => w.Sound ∧ w.NoBlockedPort) _ ?_ ?_ ?_ ?_ evs
  · exact fun w ev hw hev => ⟨sound_step hw.1 ev, noBlockedPort_step hw.1 hw.2 hev⟩
  · exact fun w hw => blocksPorts_of_noBlockedPort compile hw.1 hw.2
  · rintro w ev ⟨hw, -⟩ hev hgood
    obtain ⟨d, now, msg, ipPkt, l4Pkt, rfl, hg, hblocked⟩ := not_not.mp hev
    obtain ⟨hmem, -, hports⟩ := mirror_mem_of_grants compile hw.keyed hg
    rw [← hports] at hblocked
    exact (hgood _ _ hblocked hg.proto).1 d _ hmem rfl (by simp)
  · exact ⟨sound_init dpi, fun port proto h => absurd h (Finset.notMem_empty _)⟩

/-- UDP port 100 is blocked, and then host 1 sends five datagrams from it. -/
def blockedSenderPortRun : List Event :=
  [.handshake 1, .rest (.addBlockedPort "100" "17"),
    .packetIn 1 0 (packetInFrom 2 (arpFrame 2 1 2))] ++
    List.replicate 5 (.packetIn 1 0 (packetInFrom 1 (udpFrame 1 2 100 53)))

/-- The fifth datagram leaves an entry that forwards datagrams to the blocked port. -/
theorem not_blocksPorts_blockedSenderPortRun :
    ¬ (run builtinCompile builtinEngine blockedSenderPortRun).BlocksPorts builtinCompile := by
  intro h
  have hblocked : (100, 17) ∈
      (run builtinCompile builtinEngine blockedSenderPortRun).ctl.blockedPorts := by
    decide +kernel
  have hmem : trustFlowEntry 17 ("10.0.0.2", 53) ("10.0.0.1", 100) 2 ∈
      (run builtinCompile builtinEngine blockedSenderPortRun).tables 1 := by
    decide +kernel
  exact (h _ _ hblocked (Or.inr rfl)).1 1 _ hmem rfl ⟨rfl, rfl⟩

end World

end SdnFirewall
