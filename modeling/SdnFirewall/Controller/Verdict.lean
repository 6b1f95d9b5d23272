import SdnFirewall.Controller.Handlers

/-!
# What a packet-in can do

`Filtered` lists, once, the ways through the filtering area; everything later proofs need about a
verdict is read off it. The second half does the same for the whole handler: what it tells the
switches, and which parts of the state it leaves alone.
-/

namespace SdnFirewall

open Common OpenFlow Python

/-- The ways through the filtering area, by what the frame contains and what the state says. -/
inductive Filtered (datapath : Datapath) (now : ℚ) (data : Bytes) (ethPkt : Ethernet)
    (c : FirewallApp) : FwOutcome (Option CheckResult) → Prop
  /-- An ethertype nobody looks at. -/
  | ignored (hip : ethPkt.ethertype ≠ ETH_TYPE_IP) (harp : ethPkt.ethertype ≠ ETH_TYPE_ARP) :
      Filtered datapath now data ethPkt c ⟨.ok none, c, []⟩
  /-- An IPv4 or ARP header that was not parsed. -/
  | noHeader (h : ethPkt.ethertype = ETH_TYPE_IP ∧ (Packet.parse data).ipv4 = none ∨
        ethPkt.ethertype = ETH_TYPE_ARP ∧ (Packet.parse data).arp = none) :
      Filtered datapath now data ethPkt c ⟨.error .attributeError, c, []⟩
  /-- Rejected for its source. -/
  | source (ipPkt : IPv4) (heth : ethPkt.ethertype = ETH_TYPE_IP)
      (hip : (Packet.parse data).ipv4 = some ipPkt)
      (hsrc : c.sourceVerdict now ipPkt.src ≠ .allowed) :
      Filtered datapath now data ethPkt c
        ⟨.ok (some (c.sourceVerdict now ipPkt.src)), c.clocked now ipPkt.src,
          if c.sourceVerdict now ipPkt.src = .rateLimited then
            [.sendMsg datapath.id (.flowMod (rateDropMod ipPkt.src))] else []⟩
  /-- A TCP or UDP header that was not parsed. -/
  | noL4 (ipPkt : IPv4) (heth : ethPkt.ethertype = ETH_TYPE_IP)
      (hip : (Packet.parse data).ipv4 = some ipPkt)
      (hsrc : c.sourceVerdict now ipPkt.src = .allowed)
      (hl4 : ipPkt.proto = 6 ∧ (Packet.parse data).tcp = none ∨
        ipPkt.proto = 17 ∧ (Packet.parse data).udp = none) :
      Filtered datapath now data ethPkt c ⟨.error .attributeError, c.clocked now ipPkt.src, []⟩
  /-- A datagram, judged by its destination port. -/
  | datagram (ipPkt : IPv4) (udpPkt : Udp) (heth : ethPkt.ethertype = ETH_TYPE_IP)
      (hip : (Packet.parse data).ipv4 = some ipPkt)
      (hsrc : c.sourceVerdict now ipPkt.src = .allowed) (hproto : ipPkt.proto = 17)
      (hudp : (Packet.parse data).udp = some udpPkt) :
      Filtered datapath now data ethPkt c
        ⟨.ok (some (if (udpPkt.dstPort, 17) ∈ c.blockedPorts then .portBlocked else .allowed)),
          c.clocked now ipPkt.src, []⟩
  /-- A segment rejected before DPI. -/
  | segment (ipPkt : IPv4) (tcpPkt : Tcp) (heth : ethPkt.ethertype = ETH_TYPE_IP)
      (hip : (Packet.parse data).ipv4 = some ipPkt)
      (hsrc : c.sourceVerdict now ipPkt.src = .allowed) (hproto : ipPkt.proto = 6)
      (htcp : (Packet.parse data).tcp = some tcpPkt) (hseg : c.segmentVerdict tcpPkt ≠ .allowed) :
      Filtered datapath now data ethPkt c
        ⟨.ok (some (c.segmentVerdict tcpPkt)), c.clocked now ipPkt.src, []⟩
  /-- A segment that reaches DPI. -/
  | inspected (ipPkt : IPv4) (tcpPkt : Tcp) (heth : ethPkt.ethertype = ETH_TYPE_IP)
      (hip : (Packet.parse data).ipv4 = some ipPkt)
      (hsrc : c.sourceVerdict now ipPkt.src = .allowed) (hproto : ipPkt.proto = 6)
      (htcp : (Packet.parse data).tcp = some tcpPkt) (hseg : c.segmentVerdict tcpPkt = .allowed)
      (r : FwOutcome CheckResult)
      (hr : (checkDpi ipPkt tcpPkt (extractTcpPayload data ipPkt tcpPkt)).run
        (c.clocked now ipPkt.src) = r) :
      Filtered datapath now data ethPkt c ⟨r.val.map some, r.state, r.out⟩
  /-- A packet of another protocol. -/
  | other (ipPkt : IPv4) (heth : ethPkt.ethertype = ETH_TYPE_IP)
      (hip : (Packet.parse data).ipv4 = some ipPkt)
      (hsrc : c.sourceVerdict now ipPkt.src = .allowed) (htcp : ipPkt.proto ≠ 6)
      (hudp : ipPkt.proto ≠ 17) :
      Filtered datapath now data ethPkt c ⟨.ok (some .allowed), c.clocked now ipPkt.src, []⟩
  /-- An ARP frame. -/
  | arp (arpPkt : Arp) (heth : ethPkt.ethertype = ETH_TYPE_ARP)
      (harp : (Packet.parse data).arp = some arpPkt) (r : FwOutcome CheckResult)
      (hr : (checkArpSpoof datapath arpPkt.srcMac arpPkt.srcIp).run c = r) :
      Filtered datapath now data ethPkt c ⟨r.val.map some, r.state, r.out⟩

/-- A last step that only wraps the verdict. -/
theorem andThen_some (r : FwOutcome CheckResult) :
    (r.andThen fun result s => (pure (some result) : Fw (Option CheckResult)).run s) =
      ⟨r.val.map some, r.state, r.out⟩ := by
  obtain ⟨val, state, out⟩ := r
  cases val with
  | error e => rfl
  | ok result => simp [Except.map]

/-- The filtering area takes one of the listed ways. -/
theorem filtered_run (datapath : Datapath) (now : ℚ) (data : Bytes) (ethPkt : Ethernet)
    (c : FirewallApp) :
    Filtered datapath now data ethPkt c
      ((filterArea datapath now data (Packet.parse data) ethPkt).run c) := by
  unfold filterArea
  by_cases heth : ethPkt.ethertype = ETH_TYPE_IP
  · rw [if_pos heth, Prog.run_bind, andThen_some]
    cases hip : (Packet.parse data).ipv4 with
    | none =>
        exact .noHeader (Or.inl ⟨heth, hip⟩)
    | some ipPkt =>
        simp only [ipv4PacketHandler, Prog.run_bind, Prog.run_orRaise_some, Outcome.andThen_ok,
          run_sourceChecks, List.nil_append]
        -- a rejected source is not asked for its ports
        by_cases hsrc : c.sourceVerdict now ipPkt.src = .allowed
        swap
        · simp only [if_pos hsrc, Prog.run_pure, List.append_nil, ne_eq]
          exact .source ipPkt heth hip hsrc
        simp only [hsrc, ne_eq, not_true_eq_false, if_false, reduceCtorEq, List.nil_append]
        have hports : (c.clocked now ipPkt.src).blockedPorts = c.blockedPorts := by
          obtain ⟨t, ht⟩ := clocked_eq c now ipPkt.src
          rw [ht]
        by_cases htcp : ipPkt.proto = 6
        · rw [protocolHandler_tcp _ htcp]
          cases hpkt : (Packet.parse data).tcp with
          | none => exact .noL4 ipPkt heth hip hsrc (Or.inl ⟨htcp, hpkt⟩)
          | some tcpPkt =>
              have hseg : (c.clocked now ipPkt.src).segmentVerdict tcpPkt =
                  c.segmentVerdict tcpPkt := by
                rw [FirewallApp.segmentVerdict, FirewallApp.segmentVerdict, hports]
              rw [run_tcpPacketHandler, hseg]
              by_cases h : c.segmentVerdict tcpPkt = .allowed
              · rw [if_pos h]
                exact .inspected ipPkt tcpPkt heth hip hsrc htcp hpkt h _ rfl
              · rw [if_neg h]
                exact .segment ipPkt tcpPkt heth hip hsrc htcp hpkt h
        by_cases hudp : ipPkt.proto = 17
        · rw [protocolHandler_udp _ hudp]
          cases hpkt : (Packet.parse data).udp with
          | none => exact .noL4 ipPkt heth hip hsrc (Or.inr ⟨hudp, hpkt⟩)
          | some udpPkt =>
              simp only [udpPacketHandler, Prog.run_bind, Prog.run_orRaise_some,
                Outcome.andThen_ok, run_checkPortBlock, hports, List.nil_append]
              exact .datagram ipPkt udpPkt heth hip hsrc hudp hpkt
        · rw [protocolHandler_other _ htcp hudp]
          exact .other ipPkt heth hip hsrc htcp hudp
  · rw [if_neg heth]
    -- the other frames come to no IPv4 check
    by_cases harp : ethPkt.ethertype = ETH_TYPE_ARP
    · rw [if_pos harp, Prog.run_bind, andThen_some]
      cases hpkt : (Packet.parse data).arp with
      | none => exact .noHeader (Or.inr ⟨harp, hpkt⟩)
      | some arpPkt =>
          simp only [arpPacketHandler, Prog.run_bind, Prog.run_orRaise_some, Outcome.andThen_ok,
            List.nil_append]
          exact .arp arpPkt harp hpkt _ rfl
    · rw [if_neg harp]
      exact .ignored heth harp

/-! ## Reading a verdict -/

/-- The part of the state the filtering area cannot change. -/
def FirewallApp.rules (c : FirewallApp) : FirewallApp :=
  { c with
    arpTable := .empty, rateTracker := .empty, trustTable := .empty, eventLog := [], stats := {} }

/-- States with one core agree on what the filtering area cannot change. -/
theorem rules_of_core {c c' : FirewallApp} (h : c.core = c'.core) : c.rules = c'.rules := by
  show c.core.rules = c'.core.rules
  rw [h]

@[simp] theorem rules_clocked (c : FirewallApp) (now : ℚ) (ip : String) :
    (c.clocked now ip).rules = c.rules := by
  obtain ⟨t, ht⟩ := clocked_eq c now ip
  rw [ht]; rfl

@[simp] theorem trustTable_clocked (c : FirewallApp) (now : ℚ) (ip : String) :
    (c.clocked now ip).trustTable = c.trustTable := by
  obtain ⟨t, ht⟩ := clocked_eq c now ip
  rw [ht]

@[simp] theorem dpi_clocked (c : FirewallApp) (now : ℚ) (ip : String) :
    (c.clocked now ip).dpi = c.dpi := by
  obtain ⟨t, ht⟩ := clocked_eq c now ip
  rw [ht]

/-- A call of `_check_dpi`: the headers and the payload. -/
structure DpiCall where
  ipPkt : IPv4
  tcpPkt : Tcp
  payload : Bytes

namespace DpiCall

/-- The flow of the segment. -/
def key (call : DpiCall) : TrustKey := flowKeyOf call.ipPkt call.tcpPkt.l4

/-- The endpoint that sent the segment. -/
def sender (call : DpiCall) : Endpoint := (call.ipPkt.src, call.tcpPkt.srcPort)

/-- The direction the segment is buffered for. -/
def side (call : DpiCall) : Side := call.key.side call.sender

/-- The record of the flow after the call. -/
def after (call : DpiCall) (c : FirewallApp) : TrustEntry :=
  (c.entryOf call.key).inspected c.dpi call.side call.payload

end DpiCall

/-- The endpoint whose packets a buffer holds. -/
def TrustKey.endpoint (k : TrustKey) : Side → Endpoint
  | .a => k.a
  | .b => k.b

/-- A segment is buffered on the side of its sender. -/
theorem DpiCall.sender_eq (call : DpiCall) : call.sender = call.key.endpoint call.side := by
  rw [DpiCall.side, TrustKey.side]
  by_cases h : call.sender = call.key.a
  · rw [if_pos h]
    exact h
  · rw [if_neg h]
    rcases trustKey_endpoints call.ipPkt.proto call.ipPkt.src call.tcpPkt.srcPort call.ipPkt.dst
      call.tcpPkt.dstPort with hk | hk
    · exact absurd (congrArg TrustKey.a hk).symm h
    · exact (congrArg TrustKey.b hk).symm

@[simp] theorem DpiCall.after_clocked (call : DpiCall) (c : FirewallApp) (now : ℚ) (ip : String) :
    call.after (c.clocked now ip) = call.after c := by
  simp only [DpiCall.after, FirewallApp.entryOf, trustTable_clocked, dpi_clocked]

/-- The call of `_check_dpi` a frame leads to: it must be a parsed TCP segment that passes every
earlier check. -/
def FirewallApp.dpiCallOf (c : FirewallApp) (now : ℚ) (data : Bytes) (ethPkt : Ethernet) :
    Option DpiCall := do
  let ipPkt ← (Packet.parse data).ipv4
  let tcpPkt ← (Packet.parse data).tcp
  if ethPkt.ethertype = ETH_TYPE_IP ∧ c.sourceVerdict now ipPkt.src = .allowed ∧
      ipPkt.proto = 6 ∧ c.segmentVerdict tcpPkt = .allowed then
    some ⟨ipPkt, tcpPkt, extractTcpPayload data ipPkt tcpPkt⟩
  else none

/-- What comes to inspection: a TCP segment over IPv4 that every stage before it let through. -/
theorem dpiCallOf_eq_some {c : FirewallApp} {now : ℚ} {data : Bytes} {ethPkt : Ethernet}
    {call : DpiCall} :
    c.dpiCallOf now data ethPkt = some call ↔
      (Packet.parse data).ipv4 = some call.ipPkt ∧ (Packet.parse data).tcp = some call.tcpPkt ∧
      ethPkt.ethertype = ETH_TYPE_IP ∧ c.sourceVerdict now call.ipPkt.src = .allowed ∧
      call.ipPkt.proto = 6 ∧ c.segmentVerdict call.tcpPkt = .allowed ∧
      extractTcpPayload data call.ipPkt call.tcpPkt = call.payload := by
  obtain ⟨ip, tcp, payload⟩ := call
  simp only [FirewallApp.dpiCallOf, Option.bind_eq_bind, Option.bind_eq_some_iff,
    Option.ite_none_right_eq_some, Option.some.injEq, DpiCall.mk.injEq]
  constructor
  · rintro ⟨ip', hip, tcp', htcp, hc, rfl, rfl, hp⟩
    exact ⟨hip, htcp, hc.1, hc.2.1, hc.2.2.1, hc.2.2.2, hp⟩
  · rintro ⟨hip, htcp, h1, h2, h3, h4, hp⟩
    exact ⟨ip, hip, tcp, htcp, ⟨h1, h2, h3, h4⟩, rfl, rfl, hp⟩

/-- The DPI stage: the verdict is the blocked flag it leaves, and but for counting and logging the
record is all it changes. -/
theorem checkDpi_spec (call : DpiCall) (c : FirewallApp) :
    ∃ state out, (checkDpi call.ipPkt call.tcpPkt call.payload).run c =
        ⟨.ok (if (call.after c).blocked then .dpiBlocked else .allowed), state, out⟩ ∧
      state.core = (c.setTrust call.key (call.after c)).core ∧ (∀ o ∈ out, o.IsBroadcast) := by
  rw [run_checkDpi]
  show ∃ state out, (if (call.after c).blocked = true then _ else _) = _ ∧ _
  by_cases hb : (call.after c).blocked = true
  · rw [if_pos hb, if_pos hb]
    by_cases hold : (c.entryOf call.key).blocked = true
    · exact ⟨c.setTrust call.key (call.after c), [], if_pos hold, rfl, by simp⟩
    · refine ⟨_, _, if_neg hold, rfl, ?_⟩
      intro o ho
      simp only [logOut, List.mem_cons, List.not_mem_nil, or_false] at ho
      rcases ho with rfl | rfl <;> trivial
  · rw [if_neg hb, if_neg hb]
    exact ⟨c.setTrust call.key (call.after c), [], rfl, rfl, by simp⟩

namespace Filtered

variable {datapath : Datapath} {now : ℚ} {data : Bytes} {ethPkt : Ethernet} {c : FirewallApp}
variable {r : FwOutcome (Option CheckResult)}

/-- The filtering area changes no rule, no connection and no learned port. -/
theorem rules_eq (h : Filtered datapath now data ethPkt c r) : r.state.rules = c.rules := by
  cases h with
  | ignored | noHeader => rfl
  | source ipPkt | noL4 ipPkt | datagram ipPkt | segment ipPkt | other ipPkt =>
      exact rules_clocked ..
  | inspected ipPkt tcpPkt heth hip hsrc hproto htcp hseg r hr =>
      obtain ⟨state, out, hrun, hcore, -⟩ := checkDpi_spec
        ⟨ipPkt, tcpPkt, extractTcpPayload data ipPkt tcpPkt⟩ (c.clocked now ipPkt.src)
      rw [← hr, hrun]
      exact (rules_of_core hcore).trans (rules_clocked ..)
  | arp arpPkt heth harp r hr =>
      rw [← hr, run_checkArpSpoof]
      split
      · rfl
      · split <;> rfl

/-- A frame that leads to a DPI call ends as the call does. -/
theorem eq_checkDpi (h : Filtered datapath now data ethPkt c r) {call : DpiCall}
    (hcall : c.dpiCallOf now data ethPkt = some call) :
    let r' := (checkDpi call.ipPkt call.tcpPkt call.payload).run (c.clocked now call.ipPkt.src)
    r = ⟨r'.val.map some, r'.state, r'.out⟩ := by
  obtain ⟨hip, htcp, heth, hsrc, hproto, hseg, hpay⟩ := dpiCallOf_eq_some.mp hcall
  have hne : ethPkt.ethertype ≠ ETH_TYPE_ARP := by rw [heth]; decide
  -- every other way contradicts one of the conditions of the call
  cases h with
  | ignored hip' => exact absurd heth hip'
  | noHeader h =>
      rcases h with ⟨-, h⟩ | ⟨h, -⟩
      · rw [hip] at h; exact absurd h (by simp)
      · exact absurd h hne
  | source ip _ hip' hsrc' =>
      obtain rfl : call.ipPkt = ip := by simpa [hip] using hip'
      exact absurd hsrc hsrc'
  | noL4 ip _ hip' _ hl4 =>
      obtain rfl : call.ipPkt = ip := by simpa [hip] using hip'
      rcases hl4 with ⟨-, h⟩ | ⟨h, -⟩
      · rw [htcp] at h; exact absurd h (by simp)
      · omega
  | datagram ip _ _ hip' _ hproto' =>
      obtain rfl : call.ipPkt = ip := by simpa [hip] using hip'
      omega
  | segment ip tcp _ _ _ _ htcp' hseg' =>
      obtain rfl : call.tcpPkt = tcp := by simpa [htcp] using htcp'
      exact absurd hseg hseg'
  | other ip _ hip' _ hnot =>
      obtain rfl : call.ipPkt = ip := by simpa [hip] using hip'
      exact absurd hproto hnot
  | arp _ heth' => exact absurd heth' hne
  | inspected ip tcp _ hip' _ _ htcp' _ r hr =>
      obtain rfl : call.ipPkt = ip := by simpa [hip] using hip'
      obtain rfl : call.tcpPkt = tcp := by simpa [htcp] using htcp'
      rw [hpay] at hr
      rw [← hr]

/-- A frame that leads to a DPI call went through the DPI stage. -/
theorem of_dpiCall (h : Filtered datapath now data ethPkt c r) {call : DpiCall}
    (hcall : c.dpiCallOf now data ethPkt = some call) :
    r.val = .ok (some (if (call.after c).blocked then .dpiBlocked else .allowed)) ∧
      r.state.core = ((c.clocked now call.ipPkt.src).setTrust call.key (call.after c)).core ∧
      (∀ o ∈ r.out, o.IsBroadcast) := by
  obtain ⟨state, out, hrun, hcore, hout⟩ := checkDpi_spec call (c.clocked now call.ipPkt.src)
  rw [DpiCall.after_clocked] at hcore hrun
  rw [h.eq_checkDpi hcall, hrun]
  exact ⟨rfl, hcore, hout⟩

/-- A frame that leads to no DPI call leaves at most a timestamp and a binding. -/
theorem state_of_no_dpiCall (h : Filtered datapath now data ethPkt c r)
    (hcall : c.dpiCallOf now data ethPkt = none) :
    ∃ tracker arps, r.state = { c with rateTracker := tracker, arpTable := arps } := by
  cases h with
  | ignored | noHeader => exact ⟨c.rateTracker, c.arpTable, rfl⟩
  | source ip | noL4 ip | datagram ip | segment ip | other ip =>
      obtain ⟨tracker, htracker⟩ := clocked_eq c now ip.src
      exact ⟨tracker, c.arpTable, htracker⟩
  | inspected ip tcp heth hip hsrc hproto htcp hseg =>
      have hsome : c.dpiCallOf now data ethPkt = some ⟨ip, tcp, extractTcpPayload data ip tcp⟩ :=
        dpiCallOf_eq_some.mpr ⟨hip, htcp, heth, hsrc, hproto, hseg, rfl⟩
      rw [hcall] at hsome
      exact absurd hsome (by simp)
  | arp arpPkt heth harp r hr =>
      rw [← hr, run_checkArpSpoof]
      split
      · exact ⟨c.rateTracker, _, rfl⟩
      · split <;> exact ⟨c.rateTracker, c.arpTable, rfl⟩

/-- A frame that leads to no DPI call leaves the trust table alone. -/
theorem trustTable_of_no_dpiCall (h : Filtered datapath now data ethPkt c r)
    (hcall : c.dpiCallOf now data ethPkt = none) : r.state.trustTable = c.trustTable := by
  obtain ⟨tracker, arps, hstate⟩ := h.state_of_no_dpiCall hcall
  rw [hstate]

/-- An ARP frame goes through the spoof check, if its header was parsed. -/
theorem of_arp (h : Filtered datapath now data ethPkt c r)
    (heth : ethPkt.ethertype = ETH_TYPE_ARP) :
    ((Packet.parse data).arp = none ∧ r = ⟨.error .attributeError, c, []⟩) ∨
      ∃ arpPkt, (Packet.parse data).arp = some arpPkt ∧
        r = match c.arpTable.get? arpPkt.srcIp with
          | none => ⟨.ok (some .allowed), c.bindArp arpPkt.srcIp arpPkt.srcMac, []⟩
          | some mac =>
            if mac = arpPkt.srcMac then ⟨.ok (some .allowed), c, []⟩
            else ⟨.ok (some .arpSpoof), c,
              [.sendMsg datapath.id (.flowMod (arpDropMod arpPkt.srcIp))]⟩ := by
  have hne : ethPkt.ethertype ≠ ETH_TYPE_IP := by rw [heth]; decide
  cases h with
  | ignored _ harp => exact absurd heth harp
  | noHeader h =>
      rcases h with ⟨h, -⟩ | ⟨-, h⟩
      · exact absurd h hne
      · exact Or.inl ⟨h, rfl⟩
  | source _ h | noL4 _ h | datagram _ _ h | segment _ _ h | inspected _ _ h | other _ h =>
      exact absurd h hne
  | arp arpPkt _ harp r hr =>
      refine Or.inr ⟨arpPkt, harp, ?_⟩
      rw [← hr, run_checkArpSpoof]
      cases c.arpTable.get? arpPkt.srcIp with
      | none => rfl
      | some mac => by_cases hm : mac = arpPkt.srcMac <;> simp [hm, Except.map]

/-- What an allowed IPv4 packet has passed. -/
theorem allowed_ipv4 (h : Filtered datapath now data ethPkt c r)
    (hval : r.val = .ok (some .allowed)) (heth : ethPkt.ethertype = ETH_TYPE_IP) :
    ∃ ipPkt, (Packet.parse data).ipv4 = some ipPkt ∧ c.sourceVerdict now ipPkt.src = .allowed ∧
      (ipPkt.proto = 6 → ∃ tcpPkt, (Packet.parse data).tcp = some tcpPkt ∧
        c.segmentVerdict tcpPkt = .allowed) ∧
      (ipPkt.proto = 17 → ∃ udpPkt, (Packet.parse data).udp = some udpPkt ∧
        (udpPkt.dstPort, 17) ∉ c.blockedPorts) := by
  have hne : ethPkt.ethertype ≠ ETH_TYPE_ARP := by rw [heth]; decide
  cases h with
  | ignored | noHeader | noL4 => simp at hval
  | source ip _ _ hsrc => exact absurd (by simpa using hval) hsrc
  | segment ip tcp _ _ _ _ _ hseg => exact absurd (by simpa using hval) hseg
  | datagram ip udp _ hip hsrc hproto hudp =>
      refine ⟨ip, hip, hsrc, by omega, fun _ => ⟨udp, hudp, fun hmem => ?_⟩⟩
      simp [hmem] at hval
  | inspected ip tcp _ hip hsrc hproto htcp hseg =>
      exact ⟨ip, hip, hsrc, fun _ => ⟨tcp, htcp, hseg⟩, by omega⟩
  | other ip _ hip hsrc htcp hudp =>
      exact ⟨ip, hip, hsrc, fun h => absurd h htcp, fun h => absurd h hudp⟩
  | arp _ harp => exact absurd harp hne

/-- Only the DPI stage answers `DPI_BLOCKED`. -/
theorem dpiCall_of_blocked (h : Filtered datapath now data ethPkt c r)
    (hval : r.val = .ok (some .dpiBlocked)) :
    ∃ call, c.dpiCallOf now data ethPkt = some call ∧ (call.after c).blocked = true := by
  cases hcall : c.dpiCallOf now data ethPkt with
  | some call =>
      obtain ⟨hval', -⟩ := h.of_dpiCall hcall
      refine ⟨call, rfl, ?_⟩
      by_contra hb
      simp [hval', hb] at hval
  -- no other stage gives this verdict
  | none =>
      exfalso
      cases h with
      | ignored | noHeader | noL4 | other => simp at hval
      | source ip =>
          have hsrc : c.sourceVerdict now ip.src ≠ .dpiBlocked :=
            sourceVerdict_ne c now ip.src (by simp) id
          exact hsrc (by simpa using hval)
      | datagram ip udp =>
          by_cases hport : (udp.dstPort, 17) ∈ c.blockedPorts <;> simp [hport] at hval
      | segment ip tcp =>
          have hseg : c.segmentVerdict tcp ≠ .dpiBlocked := segmentVerdict_ne c tcp (by simp) id
          exact hseg (by simpa using hval)
      | inspected ip tcp heth hip hsrc hproto htcp hseg =>
          have hsome :
              c.dpiCallOf now data ethPkt = some ⟨ip, tcp, extractTcpPayload data ip tcp⟩ :=
            dpiCallOf_eq_some.mpr ⟨hip, htcp, heth, hsrc, hproto, hseg, rfl⟩
          rw [hcall] at hsome
          exact absurd hsome (by simp)
      | arp arpPkt heth harp r hr =>
          rw [← hr, run_checkArpSpoof] at hval
          split at hval
          · simp [Except.map] at hval
          · split at hval <;> simp [Except.map] at hval

/-- Only ARP frames are rejected as forged. -/
theorem ethertype_of_arpSpoof (h : Filtered datapath now data ethPkt c r)
    (hval : r.val = .ok (some .arpSpoof)) : ethPkt.ethertype = ETH_TYPE_ARP := by
  cases h with
  | ignored | noHeader | noL4 | other => simp at hval
  | source ip =>
      have hsrc : c.sourceVerdict now ip.src ≠ .arpSpoof :=
        sourceVerdict_ne c now ip.src (by simp) id
      exact absurd (by simpa using hval) hsrc
  | datagram ip udp =>
      by_cases hport : (udp.dstPort, 17) ∈ c.blockedPorts <;> simp [hport] at hval
  | segment ip tcp =>
      have hseg : c.segmentVerdict tcp ≠ .arpSpoof := segmentVerdict_ne c tcp (by simp) id
      exact absurd (by simpa using hval) hseg
  | inspected ip tcp _ _ _ _ _ _ r hr =>
      obtain ⟨state, out, hrun, -⟩ :=
        checkDpi_spec ⟨ip, tcp, extractTcpPayload data ip tcp⟩ (c.clocked now ip.src)
      rw [← hr, hrun] at hval
      revert hval
      dsimp only [Except.map]
      split_ifs <;> simp
  | arp _ heth => exact heth

/-- Only IPv4 and ARP frames get a verdict. -/
theorem ethertype_of_verdict (h : Filtered datapath now data ethPkt c r) {result : CheckResult}
    (hval : r.val = .ok (some result)) :
    ethPkt.ethertype = ETH_TYPE_IP ∨ ethPkt.ethertype = ETH_TYPE_ARP := by
  cases h with
  | ignored | noHeader | noL4 => simp at hval
  | source _ h | datagram _ _ h | segment _ _ h | inspected _ _ h | other _ h => exact Or.inl h
  | arp _ h => exact Or.inr h

/-- The filtering area tells a switch nothing but to drop a rate-limited source or the ARP frames
of a forged address, and it then rejects the frame. -/
theorem sendMsg_mem (h : Filtered datapath now data ethPkt c r) {d : ℕ} {m : OFPMsg}
    (hm : Effect.sendMsg d m ∈ r.out) :
    d = datapath.id ∧ ((∃ ip, m = .flowMod (rateDropMod ip)) ∧ r.val = .ok (some .rateLimited) ∨
      (∃ ip, m = .flowMod (arpDropMod ip)) ∧ r.val = .ok (some .arpSpoof)) := by
  -- of the checks only two send anything, each as it rejects
  cases h with
  | ignored | noHeader | noL4 | datagram | segment | other => simp at hm
  | source ip _ _ hsrc =>
      by_cases hrate : c.sourceVerdict now ip.src = .rateLimited
      · simp only [hrate, if_true, List.mem_singleton, Effect.sendMsg.injEq] at hm
        exact ⟨hm.1, Or.inl ⟨⟨ip.src, hm.2⟩, by simp [hrate]⟩⟩
      · simp [hrate] at hm
  | inspected ip tcp _ _ _ _ _ _ r hr =>
      obtain ⟨state, out, hrun, -, hout⟩ := checkDpi_spec
        ⟨ip, tcp, extractTcpPayload data ip tcp⟩ (c.clocked now ip.src)
      rw [← hr, hrun] at hm
      exact absurd (hout _ hm) (by simp [Effect.IsBroadcast])
  | arp arpPkt heth harp r hr =>
      have hf : Filtered datapath now data ethPkt c ⟨r.val.map some, r.state, r.out⟩ :=
        .arp arpPkt heth harp r hr
      rcases hf.of_arp heth with ⟨hnone, -⟩ | ⟨arpPkt', hsome, heq⟩
      · rw [hnone] at harp; exact absurd harp (by simp)
      · rw [heq] at hm ⊢
        cases hget : c.arpTable.get? arpPkt'.srcIp with
        | none => simp [hget] at hm
        | some mac =>
            by_cases hmac : mac = arpPkt'.srcMac
            · simp [hget, hmac] at hm
            · simp only [hget, if_neg hmac, List.mem_singleton, Effect.sendMsg.injEq] at hm ⊢
              exact ⟨hm.1, Or.inr ⟨⟨_, hm.2⟩, trivial⟩⟩

end Filtered

/-! ## The whole handler -/

/-- The Ethernet header of a complete frame: what the handler goes on with. -/
def PacketIn.ethernet? (msg : PacketIn) : Option Ethernet :=
  if msg.data = [] ∨ msg.msgLen < msg.totalLen then none else (Packet.parse msg.data).ethernet

/-- The message passes the two guards of the handler: it has data, and is not too short for its
frame. -/
def PacketIn.Proceeds (msg : PacketIn) : Prop := msg.data ≠ [] ∧ ¬ msg.msgLen < msg.totalLen

/-- A message that passes the guards has the header of its frame. -/
theorem PacketIn.Proceeds.ethernet? {msg : PacketIn} (h : msg.Proceeds) :
    msg.ethernet? = (Packet.parse msg.data).ethernet :=
  if_neg (not_or.mpr h)

/-- A message that a guard stops is not looked at. -/
theorem packetInHandler_of_not_proceeds {msg : PacketIn} (h : ¬ msg.Proceeds)
    (datapath : Datapath) (now : ℚ) : packetInHandler datapath now msg = pure () := by
  by_cases hdata : msg.data = []
  · rw [packetInHandler, if_pos hdata]
  · by_cases hlen : msg.msgLen < msg.totalLen
    · rw [packetInHandler, if_neg hdata, if_pos hlen]
    · exact absurd ⟨hdata, hlen⟩ h

/-- A header that is looked at is the one of the frame. -/
theorem ethernet_of_ethernet? {msg : PacketIn} {ethPkt : Ethernet}
    (h : msg.ethernet? = some ethPkt) : (Packet.parse msg.data).ethernet = some ethPkt := by
  unfold PacketIn.ethernet? at h
  split at h
  · exact absurd h (by simp)
  · exact h

/-- The filtering area run on a packet-in. -/
def FirewallApp.filterOf (c : FirewallApp) (datapath : Datapath) (now : ℚ) (msg : PacketIn)
    (ethPkt : Ethernet) : FwOutcome (Option CheckResult) :=
  (filterArea datapath now msg.data (Packet.parse msg.data) ethPkt).run c

/-- The verdict on a packet-in; `none` when the frame is incomplete, ignored or not parsed. -/
def FirewallApp.verdict? (c : FirewallApp) (datapath : Datapath) (now : ℚ) (msg : PacketIn) :
    Option CheckResult :=
  msg.ethernet?.bind fun ethPkt =>
    match (c.filterOf datapath now msg ethPkt).val with
    | .ok result => result
    | .error _ => none

/-- The filtering area takes one of the ways that are listed. -/
theorem filtered_filterOf (c : FirewallApp) (datapath : Datapath) (now : ℚ) (msg : PacketIn)
    (ethPkt : Ethernet) :
    Filtered datapath now msg.data ethPkt c (c.filterOf datapath now msg ethPkt) :=
  filtered_run ..

/-- The verdict is what the filtering area returns for the frame's Ethernet header. -/
theorem verdict?_eq_some {c : FirewallApp} {datapath : Datapath} {now : ℚ} {msg : PacketIn}
    {result : CheckResult} :
    c.verdict? datapath now msg = some result ↔
      ∃ ethPkt, msg.ethernet? = some ethPkt ∧
        (c.filterOf datapath now msg ethPkt).val = .ok (some result) := by
  simp only [FirewallApp.verdict?, Option.bind_eq_some_iff]
  refine exists_congr fun ethPkt => and_congr_right fun _ => ?_
  cases (c.filterOf datapath now msg ethPkt).val with
  | error e => simp
  | ok v => simp

/-- The verdict on a complete frame is the one the filtering area finds. -/
theorem verdict?_iff {c : FirewallApp} {datapath : Datapath} {now : ℚ} {msg : PacketIn}
    {ethPkt : Ethernet} (heth : msg.ethernet? = some ethPkt) {result : CheckResult} :
    c.verdict? datapath now msg = some result ↔
      (c.filterOf datapath now msg ethPkt).val = .ok (some result) := by
  rw [verdict?_eq_some]
  constructor
  · rintro ⟨ethPkt', heth', hval⟩
    obtain rfl : ethPkt' = ethPkt := by simpa [heth] using heth'.symm
    exact hval
  · exact fun hval => ⟨ethPkt, heth, hval⟩

/-- A frame with a verdict is complete. -/
theorem ethernet?_of_verdict? {c : FirewallApp} {datapath : Datapath} {now : ℚ} {msg : PacketIn}
    {result : CheckResult} (h : c.verdict? datapath now msg = some result) {ethPkt : Ethernet}
    (heth : (Packet.parse msg.data).ethernet = some ethPkt) : msg.ethernet? = some ethPkt := by
  obtain ⟨ethPkt', heth', -⟩ := verdict?_eq_some.mp h
  rw [heth', ← heth, ethernet_of_ethernet? heth']

/-- What an allowed IPv4 packet-in has passed: the source checks, and for TCP and UDP the port rule
of its destination. -/
theorem passed_of_allowed {c : FirewallApp} {datapath : Datapath} {now : ℚ} {msg : PacketIn}
    (h : c.verdict? datapath now msg = some .allowed) {ipPkt : IPv4}
    (hip : (Packet.parse msg.data).ipv4 = some ipPkt) :
    c.sourceVerdict now ipPkt.src = .allowed ∧
      ∀ l4Pkt, l4Of (Packet.parse msg.data) ipPkt = some l4Pkt →
        (l4Pkt.dstPort, ipPkt.proto) ∉ c.blockedPorts := by
  obtain ⟨ethPkt, heth, htype⟩ := Packet.ethernet_of_ipv4 hip
  have hval := (verdict?_iff (ethernet?_of_verdict? h heth)).mp h
  obtain ⟨ipPkt', hip', hsrc, htcp, hudp⟩ :=
    (filtered_filterOf c datapath now msg ethPkt).allowed_ipv4 hval htype
  obtain rfl : ipPkt' = ipPkt := by simpa [hip] using hip'.symm
  refine ⟨hsrc, fun l4Pkt hl4 => ?_⟩
  rcases proto_of_l4Of hl4 with hproto | hproto
  -- for a segment the port check is the first of its stage
  · obtain ⟨tcpPkt, htcpPkt, hseg⟩ := htcp hproto
    obtain rfl : tcpPkt.l4 = l4Pkt := by simpa [l4Of, hproto, htcpPkt] using hl4
    intro hmem
    have hmem' : (tcpPkt.dstPort, 6) ∈ c.blockedPorts := by rw [← hproto]; exact hmem
    rw [FirewallApp.segmentVerdict, if_pos hmem'] at hseg
    exact absurd hseg (by decide)
  · obtain ⟨udpPkt, hudpPkt, hport⟩ := hudp hproto
    obtain rfl : udpPkt.l4 = l4Pkt := by simpa [l4Of, hproto, hudpPkt] using hl4
    rw [hproto]
    exact hport

/-- The handler of a complete frame: the filtering area, then its outcome. -/
theorem run_packetInHandler {msg : PacketIn} {ethPkt : Ethernet} (h : msg.ethernet? = some ethPkt)
    (datapath : Datapath) (now : ℚ) (c : FirewallApp) :
    (packetInHandler datapath now msg).run c =
      (c.filterOf datapath now msg ethPkt).andThen fun result c' =>
        match result with
        | none => ⟨.ok (), c', []⟩
        | some result =>
          (outcomeArea datapath msg (Packet.parse msg.data) ethPkt result).run c' := by
  unfold PacketIn.ethernet? at h
  split at h
  · exact absurd h (by simp)
  · rename_i hguard
    rw [not_or] at hguard
    simp only [packetInHandler, if_neg hguard.1, if_neg hguard.2, h, Prog.run_bind,
      Prog.run_orRaise_some, Outcome.andThen_ok, List.nil_append, FirewallApp.filterOf]
    refine congrArg (Outcome.andThen _) (funext₂ fun result c' => ?_)
    cases result <;> rfl

/-- The handler of a frame without a verdict: at most a timestamp is kept. -/
theorem packetIn_of_no_verdict {c : FirewallApp} {datapath : Datapath} {now : ℚ} {msg : PacketIn}
    (h : c.verdict? datapath now msg = none) :
    ((packetInHandler datapath now msg).run c).out = [] ∧
      ∃ tracker, ((packetInHandler datapath now msg).run c).state =
        { c with rateTracker := tracker } := by
  cases heth : msg.ethernet? with
  | none =>
      unfold PacketIn.ethernet? at heth
      split at heth
      · rename_i hguard
        rcases hguard with hdata | hlen
        · rw [packetInHandler, if_pos hdata]
          exact ⟨rfl, c.rateTracker, rfl⟩
        · rw [packetInHandler, if_pos hlen]
          split <;> exact ⟨rfl, c.rateTracker, rfl⟩
      · rename_i hguard
        rw [not_or] at hguard
        simp only [packetInHandler, if_neg hguard.1, if_neg hguard.2, heth, Prog.run_bind,
          Prog.run_orRaise_none, Outcome.andThen_error, true_and]
        exact ⟨c.rateTracker, rfl⟩
  | some ethPkt =>
      have hf := filtered_filterOf c datapath now msg ethPkt
      rw [run_packetInHandler heth]
      have hval : ∀ result, (c.filterOf datapath now msg ethPkt).val ≠ .ok (some result) := by
        intro result hval
        rw [verdict?_eq_some.mpr ⟨ethPkt, heth, hval⟩] at h
        exact absurd h (by simp)
      generalize c.filterOf datapath now msg ethPkt = r at hf hval ⊢
      cases hf with
      -- of the ways through the filtering area only these three give no verdict
      | ignored | noHeader => exact ⟨rfl, c.rateTracker, rfl⟩
      | noL4 ip => exact ⟨rfl, clocked_eq c now ip.src⟩
      | source | datagram | segment | other => exact absurd rfl (hval _)
      | inspected ip tcp _ _ _ _ _ _ r hr =>
          obtain ⟨state, out, hrun, -⟩ := checkDpi_spec
            ⟨ip, tcp, extractTcpPayload msg.data ip tcp⟩ (c.clocked now ip.src)
          rw [← hr, hrun] at hval
          exact absurd rfl (hval _)
      | arp arpPkt harp hpkt r hr =>
          have hf : Filtered datapath now msg.data ethPkt c ⟨r.val.map some, r.state, r.out⟩ :=
            .arp arpPkt harp hpkt r hr
          rcases hf.of_arp harp with ⟨hnone, -⟩ | ⟨arp', -, heq⟩
          · rw [hpkt] at hnone; exact absurd hnone (by simp)
          · rw [heq] at hval
            cases hget : c.arpTable.get? arp'.srcIp with
            | none => rw [hget] at hval; exact absurd rfl (hval _)
            | some mac =>
                by_cases hmac : mac = arp'.srcMac
                · simp [hget, hmac] at hval
                · simp [hget, hmac] at hval

/-- The handler of a frame with a verdict. -/
theorem packetIn_of_verdict {c : FirewallApp} {datapath : Datapath} {now : ℚ} {msg : PacketIn}
    {result : CheckResult} (h : c.verdict? datapath now msg = some result) :
    ∃ ethPkt, msg.ethernet? = some ethPkt ∧
      (c.filterOf datapath now msg ethPkt).val = .ok (some result) ∧
      (packetInHandler datapath now msg).run c =
        let f := c.filterOf datapath now msg ethPkt
        let o := (outcomeArea datapath msg (Packet.parse msg.data) ethPkt result).run f.state
        ⟨o.val, o.state, f.out ++ o.out⟩ := by
  obtain ⟨ethPkt, heth, hval⟩ := verdict?_eq_some.mp h
  refine ⟨ethPkt, heth, hval, ?_⟩
  rw [run_packetInHandler heth]
  generalize c.filterOf datapath now msg ethPkt = r at hval ⊢
  obtain ⟨val, state, out⟩ := r
  simp only at hval
  subst hval
  rfl

/-! ### Rejected and forwarded frames -/

/-- The state a frame with a verdict leaves behind the filtering area, its sender learned. -/
def FirewallApp.afterLearning (c : FirewallApp) (datapath : Datapath) (now : ℚ) (msg : PacketIn)
    (ethPkt : Ethernet) : FirewallApp :=
  (c.filterOf datapath now msg ethPkt).state.learnMac datapath.id ethPkt.src msg.inPort.no

/-- The port a frame goes out of, after its sender has been learned. -/
def FirewallApp.routeOf (c : FirewallApp) (dpid : ℕ) (msg : PacketIn) (ethPkt : Ethernet) : ℕ :=
  (c.learnMac dpid ethPkt.src msg.inPort.no).outPortOf dpid ethPkt.dst

/-- The route depends only on what the filtering area cannot change. -/
theorem routeOf_of_rules {c c' : FirewallApp} (h : c.rules = c'.rules) (dpid : ℕ) (msg : PacketIn)
    (ethPkt : Ethernet) : c.routeOf dpid msg ethPkt = c'.routeOf dpid msg ethPkt := by
  show c.rules.routeOf dpid msg ethPkt = c'.rules.routeOf dpid msg ethPkt
  rw [h]

/-- Filtering changes no route. -/
theorem routeOf_filterOf (c : FirewallApp) (datapath : Datapath) (now : ℚ) (msg : PacketIn)
    (ethPkt : Ethernet) (dpid : ℕ) :
    (c.filterOf datapath now msg ethPkt).state.routeOf dpid msg ethPkt =
      c.routeOf dpid msg ethPkt :=
  routeOf_of_rules (filtered_filterOf c datapath now msg ethPkt).rules_eq dpid msg ethPkt

/-- A rejected frame: its sender is learned, and the switches hear nothing beyond what the filtering
area told them. -/
theorem packetIn_rejected {c : FirewallApp} {datapath : Datapath} {now : ℚ} {msg : PacketIn}
    {result : CheckResult} (h : c.verdict? datapath now msg = some result)
    (hrej : result ≠ .allowed) :
    ∃ ethPkt, msg.ethernet? = some ethPkt ∧
      ((packetInHandler datapath now msg).run c).state.core =
        (c.afterLearning datapath now msg ethPkt).core ∧
      ∃ out, ((packetInHandler datapath now msg).run c).out =
        (c.filterOf datapath now msg ethPkt).out ++ out ∧ ∀ o ∈ out, o.IsBroadcast := by
  obtain ⟨ethPkt, heth, -, hrun⟩ := packetIn_of_verdict h
  refine ⟨ethPkt, heth, ?_⟩
  rw [hrun]
  simp only [outcomeArea, Prog.run_bind, Prog.run_modify, Outcome.andThen_ok, List.nil_append]
  by_cases hdpi : result = .dpiBlocked
  · rw [if_pos hdpi]
    exact ⟨rfl, [], rfl, by simp⟩
  · rw [if_neg hdpi, if_pos hrej]
    have hq := rejectPacket_quiet (Packet.parse msg.data) ethPkt result
    exact ⟨hq.keeps _, _, rfl, hq.emits _⟩

/-- What is counted: a TCP or UDP packet over IPv4 whose destination is known. -/
theorem trustTarget?_eq_some {pkt : Packet} {ethPkt : Ethernet} {outPort : ℕ} {ipPkt : IPv4}
    {l4Pkt : L4} :
    trustTarget? pkt ethPkt outPort = some (ipPkt, l4Pkt) ↔
      ethPkt.ethertype = ETH_TYPE_IP ∧ outPort ≠ OFPP_FLOOD ∧ pkt.ipv4 = some ipPkt ∧
        l4Of pkt ipPkt = some l4Pkt := by
  simp only [trustTarget?, Option.ite_none_right_eq_some, Option.bind_eq_some_iff,
    Option.map_eq_some_iff, Prod.mk.injEq]
  constructor
  · rintro ⟨⟨h1, h2⟩, ip, hip, l4, hl4, rfl, rfl⟩
    exact ⟨h1, h2, hip, hl4⟩
  · rintro ⟨h1, h2, hip, hl4⟩
    exact ⟨⟨h1, h2⟩, ipPkt, hip, l4Pkt, hl4, rfl, rfl⟩

/-- One more trusted packet for a flow, if there is one. -/
def FirewallApp.recordFor (c : FirewallApp) (target : Option (IPv4 × L4)) : FirewallApp :=
  match target with
  | none => c
  | some (ipPkt, l4Pkt) =>
    c.setTrust (flowKeyOf ipPkt l4Pkt) (c.entryOf (flowKeyOf ipPkt l4Pkt)).recorded

/-- Counting depends on the core only. -/
theorem core_recordFor {c c' : FirewallApp} (h : c.core = c'.core) (target : Option (IPv4 × L4)) :
    (c.recordFor target).core = (c'.recordFor target).core := by
  cases target with
  | none => exact h
  | some target =>
      show (c.core.recordFor (some target)).core = (c'.core.recordFor (some target)).core
      rw [h]

/-- The pair of entries a trusted packet completes the trust for, if it does. -/
def FirewallApp.grants (c : FirewallApp) (msg : PacketIn) (outPort : ℕ)
    (target : Option (IPv4 × L4)) : List OFPFlowMod :=
  match target with
  | none => []
  | some (ipPkt, l4Pkt) =>
    if (c.entryOf (flowKeyOf ipPkt l4Pkt)).Completes then
      trustMods ipPkt l4Pkt msg.inPort.no outPort
    else []

/-- The messages that forward a frame. -/
def FirewallApp.forwardMsgs (c : FirewallApp) (msg : PacketIn) (pkt : Packet) (ethPkt : Ethernet)
    (outPort : ℕ) : List OFPMsg :=
  if Learns ethPkt outPort then
    .flowMod (learnedMod msg ethPkt outPort) ::
      if msg.bufferId ≠ OFP_NO_BUFFER then [] else [packetOutMsg msg outPort]
  else packetOutMsg msg outPort ::
    (c.grants msg outPort (trustTarget? pkt ethPkt outPort)).map .flowMod

/-- Entries sent to one switch are all for that switch. -/
theorem sentTo_map_sendMsg (d d' : ℕ) (mods : List OFPFlowMod) :
    sentTo d (mods.map fun mod => .sendMsg d' (.flowMod mod)) =
      if d = d' then mods.map .flowMod else [] := by
  induction mods with
  | nil => simp
  | cons mod mods ih =>
      rw [List.map_cons, sentTo_cons_sendMsg, ih]
      by_cases h : d = d'
      · simp [h]
      · simp [h, Ne.symm h]

/-- Counting a packet changes its record, and the entries it sends are those of the record's new
state. -/
theorem recordTrust_spec (datapath : Datapath) {ipPkt : IPv4} (l4Pkt : L4) (msg : PacketIn)
    (outPort : ℕ) (c : FirewallApp) (hproto : ipPkt.proto = 6 ∨ ipPkt.proto = 17) (d : ℕ) :
    ((recordTrust datapath ipPkt l4Pkt msg.inPort.no outPort).run c).state.core =
        (c.recordFor (some (ipPkt, l4Pkt))).core ∧
      sentTo d ((recordTrust datapath ipPkt l4Pkt msg.inPort.no outPort).run c).out =
        if d = datapath.id then (c.grants msg outPort (some (ipPkt, l4Pkt))).map .flowMod
        else [] := by
  rw [run_recordTrust, if_pos hproto]
  by_cases hc : (c.entryOf (flowKeyOf ipPkt l4Pkt)).Completes
  · simp only [if_pos hc, FirewallApp.grants, sentTo_append, sentTo_map_sendMsg, sentTo_logOut,
      List.append_nil]
    exact ⟨rfl, trivial⟩
  · simp only [if_neg hc, FirewallApp.grants, sentTo_nil, List.map_nil, ite_self]
    exact ⟨rfl, trivial⟩

/-- Forwarding a frame: what it records and what it sends. -/
theorem forwardPacket_spec (datapath : Datapath) (msg : PacketIn) (pkt : Packet)
    (ethPkt : Ethernet) (c : FirewallApp) (d : ℕ) :
    let r := (forwardPacket datapath msg pkt ethPkt).run c
    let outPort := c.outPortOf datapath.id ethPkt.dst
    r.state.core = (c.recordFor (trustTarget? pkt ethPkt outPort)).core ∧
      sentTo d r.out =
        if d = datapath.id then c.forwardMsgs msg pkt ethPkt outPort else [] := by
  simp only [run_forwardPacket]
  generalize c.outPortOf datapath.id ethPkt.dst = outPort
  -- a learned route leaves IPv4 to the controller, so no packet is counted on that way
  by_cases hl : Learns ethPkt outPort
  · simp only [if_pos hl, trustTarget?_of_learns hl, FirewallApp.recordFor,
      FirewallApp.forwardMsgs]
    refine ⟨rfl, ?_⟩
    by_cases hd : d = datapath.id
    · subst hd
      by_cases hb : msg.bufferId ≠ OFP_NO_BUFFER <;> simp [hb]
    · by_cases hb : msg.bufferId ≠ OFP_NO_BUFFER <;> simp [hb, hd, Ne.symm hd]
  · simp only [if_neg hl, run_sendOut, FirewallApp.forwardMsgs]
    cases htarget : trustTarget? pkt ethPkt outPort with
    | none =>
        simp only [FirewallApp.recordFor, FirewallApp.grants, List.map_nil, sentTo_cons_sendMsg,
          sentTo_nil, eq_comm]
        exact ⟨rfl, trivial⟩
    | some target =>
        obtain ⟨ipPkt, l4Pkt⟩ := target
        obtain ⟨-, -, -, hl4⟩ := trustTarget?_eq_some.mp htarget
        obtain ⟨hcore, hsent⟩ := recordTrust_spec datapath l4Pkt msg outPort (c.bump .allowed)
          (proto_of_l4Of hl4) d
        refine ⟨hcore, ?_⟩
        simp only [sentTo_cons_sendMsg, hsent]
        by_cases hd : d = datapath.id
        · subst hd
          simp only [if_true]
          rfl
        · simp [hd, Ne.symm hd]

/-- An allowed frame: its sender is learned, it is recorded for its flow, and the switch it came
from is told to forward it. -/
theorem packetIn_allowed {c : FirewallApp} {datapath : Datapath} {now : ℚ} {msg : PacketIn}
    (h : c.verdict? datapath now msg = some .allowed) :
    ∃ ethPkt, msg.ethernet? = some ethPkt ∧
      let pkt := Packet.parse msg.data
      let s := c.afterLearning datapath now msg ethPkt
      let outPort := c.routeOf datapath.id msg ethPkt
      ((packetInHandler datapath now msg).run c).state.core =
          (s.recordFor (trustTarget? pkt ethPkt outPort)).core ∧
        ∀ d, sentTo d ((packetInHandler datapath now msg).run c).out =
          if d = datapath.id then s.forwardMsgs msg pkt ethPkt outPort else [] := by
  obtain ⟨ethPkt, heth, hval, hrun⟩ := packetIn_of_verdict h
  refine ⟨ethPkt, heth, ?_⟩
  have hf := filtered_filterOf c datapath now msg ethPkt
  have hroute := routeOf_filterOf c datapath now msg ethPkt datapath.id
  -- no check that lets a frame pass sends anything
  have hquiet : ∀ d, sentTo d (c.filterOf datapath now msg ethPkt).out = [] := by
    intro d
    rw [List.eq_nil_iff_forall_not_mem]
    intro m hm
    obtain ⟨-, ⟨-, hbad⟩ | ⟨-, hbad⟩⟩ := hf.sendMsg_mem (mem_sentTo.mp hm)
    · rw [hval] at hbad; exact absurd hbad (by simp)
    · rw [hval] at hbad; exact absurd hbad (by simp)
  simp only [hrun, outcomeArea, Prog.run_bind, Prog.run_modify, Outcome.andThen_ok,
    List.nil_append, ne_eq, not_true_eq_false, if_false, reduceCtorEq, sentTo_append, hquiet]
  rw [← hroute]
  have hspec := forwardPacket_spec datapath msg (Packet.parse msg.data) ethPkt
    ((c.filterOf datapath now msg ethPkt).state.bump .total |>.learnMac datapath.id ethPkt.src
      msg.inPort.no)
  have hcore : ((c.filterOf datapath now msg ethPkt).state.bump .total |>.learnMac datapath.id
      ethPkt.src msg.inPort.no).core = (c.afterLearning datapath now msg ethPkt).core := rfl
  exact ⟨(hspec 0).1.trans (core_recordFor hcore _), fun d => (hspec d).2⟩

end SdnFirewall
