import SdnFirewall.Controller.Effects

/-!
# The three flushes

Each deletes entries from every connected switch and the matching records from the trust table. The
two sides are described separately, one by an OpenFlow match and one by a filter on keys.
-/

namespace SdnFirewall

open Common OpenFlow Python

/-- All IPv4 frames. -/
def ipv4Match : OFPMatch := { ethType := some ETH_TYPE_IP }

/-- IPv4 frames from an address. -/
def ipv4SrcMatch (ip : String) : OFPMatch :=
  { ethType := some ETH_TYPE_IP, ipv4Src := some ip }

/-- IPv4 frames to an address. -/
def ipv4DstMatch (ip : String) : OFPMatch :=
  { ethType := some ETH_TYPE_IP, ipv4Dst := some ip }

/-- Segments or datagrams to a port; other protocols have no such match. -/
def dstPortMatch? (port protoNum : ℕ) : Option OFPMatch :=
  if protoNum = 6 then
    some { ethType := some ETH_TYPE_IP, ipProto := some 6, tcpDst := some port }
  else if protoNum = 17 then
    some { ethType := some ETH_TYPE_IP, ipProto := some 17, udpDst := some port }
  else none

/-- Only TCP and UDP have a match on the destination port. -/
theorem dstPortMatch?_eq_some {port protoNum : ℕ} {m : OFPMatch}
    (h : dstPortMatch? port protoNum = some m) :
    (protoNum = 6 ∧ m = { ethType := some ETH_TYPE_IP, ipProto := some 6, tcpDst := some port }) ∨
      protoNum = 17 ∧
        m = { ethType := some ETH_TYPE_IP, ipProto := some 17, udpDst := some port } := by
  unfold dstPortMatch? at h
  split at h
  · cases h; exact Or.inl ⟨‹_›, rfl⟩
  · split at h
    · cases h; exact Or.inr ⟨‹_›, rfl⟩
    · cases h

section Covers

variable {k : OFPMatch}

@[simp] theorem ipv4Match_covers : ipv4Match.Covers k ↔ k.ethType = some ETH_TYPE_IP := by
  simp [OFPMatch.Covers, ipv4Match]

@[simp] theorem ipv4SrcMatch_covers {ip : String} :
    (ipv4SrcMatch ip).Covers k ↔ k.ethType = some ETH_TYPE_IP ∧ k.ipv4Src = some ip := by
  simp [OFPMatch.Covers, ipv4SrcMatch]

@[simp] theorem ipv4DstMatch_covers {ip : String} :
    (ipv4DstMatch ip).Covers k ↔ k.ethType = some ETH_TYPE_IP ∧ k.ipv4Dst = some ip := by
  simp [OFPMatch.Covers, ipv4DstMatch]

/-- The match covers the packets of the protocol to that port. -/
theorem dstPortMatch?_covers {port protoNum : ℕ} {m : OFPMatch}
    (h : dstPortMatch? port protoNum = some m) :
    m.Covers k ↔ k.ethType = some ETH_TYPE_IP ∧ k.ipProto = some protoNum ∧
      k.dstPort protoNum = some port := by
  rcases dstPortMatch?_eq_some h with ⟨rfl, rfl⟩ | ⟨rfl, rfl⟩
  · simp [OFPMatch.Covers, OFPMatch.dstPort]
  · simp [OFPMatch.Covers, OFPMatch.dstPort]

end Covers

/-- The action that sends a whole frame to the controller. -/
def toController : OFPActionOutput := { port := OFPP_CONTROLLER, maxLen := 65535 }

/-- The keys `_flush_flows_for_ip` selects. -/
def TrustKey.hasIp (ip : String) (k : TrustKey) : Bool := k.a.1 = ip ∨ k.b.1 = ip

/-- The keys `_flush_flows_for_port` selects. -/
def TrustKey.hasPort (port protoNum : ℕ) (k : TrustKey) : Bool :=
  k.proto = protoNum ∧ (k.a.2 = port ∨ k.b.2 = port)

/-- A flow is selected by the address of either end. -/
theorem hasIp_trustKey {ip : String} {p : ℕ} {src dst : Endpoint} :
    (trustKey p src.1 src.2 dst.1 dst.2).hasIp ip = true ↔ src.1 = ip ∨ dst.1 = ip := by
  rcases trustKey_endpoints p src.1 src.2 dst.1 dst.2 with h | h
  · simp [TrustKey.hasIp, h]
  · simp [TrustKey.hasIp, h, or_comm]

/-- A flow is selected by its protocol and the port of either end. -/
theorem hasPort_trustKey {port protoNum p : ℕ} {src dst : Endpoint} :
    (trustKey p src.1 src.2 dst.1 dst.2).hasPort port protoNum = true ↔
      p = protoNum ∧ (src.2 = port ∨ dst.2 = port) := by
  rcases trustKey_endpoints p src.1 src.2 dst.1 dst.2 with h | h
  · simp [TrustKey.hasPort, h]
  · simp [TrustKey.hasPort, h, or_comm]

/-- `_flush_flows_for_ip`. -/
def flushFlowsForIp (ipSrc : String) : Fw Unit := do
  let c ← Prog.read
  log "info" ("flushing flows for " ++ ipSrc ++ ", datapaths: " ++ c.datapathsText) "" "" ""
  forDatapaths fun datapath => do
    sendMsg datapath (.flowMod (deleteMod (ipv4SrcMatch ipSrc)))
    sendMsg datapath (.flowMod (deleteMod (ipv4DstMatch ipSrc)))
  Prog.modify (·.dropTrust (TrustKey.hasIp ipSrc))

/-- `_flush_flows_for_port`. For another protocol the loop returns from the function at the first
switch, so that the records stay; without switches it falls through. -/
def flushFlowsForPort (port protoNum : ℕ) : Fw Unit := do
  let c ← Prog.read
  log "info" ("Flushing flows for port " ++ toString port ++ ", datapaths: " ++ c.datapathsText)
    "" "" ""
  match dstPortMatch? port protoNum with
  | some m =>
    forDatapaths fun datapath => sendMsg datapath (.flowMod (deleteMod m))
    Prog.modify (·.dropTrust (TrustKey.hasPort port protoNum))
  | none =>
    let c ← Prog.read
    if c.datapaths.size = 0 then
      Prog.modify (·.dropTrust (TrustKey.hasPort port protoNum))

/-- `_flush_all_trust_flows`: delete every IPv4 entry, put the catch-all back, clear the table. -/
def flushAllTrustFlows : Fw Unit := do
  forDatapaths fun datapath => do
    sendMsg datapath (.flowMod (deleteMod ipv4Match))
    addFlow datapath 300 ipv4Match [toController]
  let c ← Prog.read
  let count := c.trustTable.size
  Prog.modify fun c =>
    { c.dropTrust (fun _ => true) with stats := { c.stats with trustFlowsInstalled := 0 } }
  log "info" ("Flushed " ++ toString count ++ " trust entries (DPI pattern change)") "" "" ""

/-! ## One undisturbed run -/

/-- The log entry of `_flush_flows_for_ip`. -/
def flushIpEntry (c : FirewallApp) (ip : String) : LogEntry :=
  ⟨"info", "flushing flows for " ++ ip ++ ", datapaths: " ++ c.datapathsText, "", "", ""⟩

/-- The log entry of `_flush_flows_for_port`. -/
def flushPortEntry (c : FirewallApp) (port : ℕ) : LogEntry :=
  ⟨"info", "Flushing flows for port " ++ toString port ++ ", datapaths: " ++ c.datapathsText,
    "", "", ""⟩

/-- The log entry of `_flush_all_trust_flows`. -/
def flushAllEntry (c : FirewallApp) : LogEntry :=
  ⟨"info", "Flushed " ++ toString c.trustTable.size ++ " trust entries (DPI pattern change)",
    "", "", ""⟩

/-- The state `_flush_all_trust_flows` leaves before it logs. -/
def FirewallApp.cleared (c : FirewallApp) : FirewallApp :=
  { c.dropTrust (fun _ => true) with stats := { c.stats with trustFlowsInstalled := 0 } }

/-- What the flush of an address does: one log entry, two deletes a switch, and no record of the
address left. -/
theorem run_flushFlowsForIp (ip : String) (c : FirewallApp) :
    (flushFlowsForIp ip).run c =
      ⟨.ok (), (c.logged (flushIpEntry c ip)).dropTrust (TrustKey.hasIp ip),
        logOut c (flushIpEntry c ip) ++ c.datapaths.values.flatMap fun dp =>
          [.sendMsg dp.id (.flowMod (deleteMod (ipv4SrcMatch ip))),
           .sendMsg dp.id (.flowMod (deleteMod (ipv4DstMatch ip)))]⟩ := by
  have hloop : ∀ (dp : Datapath) (c : FirewallApp),
      (do sendMsg dp (.flowMod (deleteMod (ipv4SrcMatch ip)))
          sendMsg dp (.flowMod (deleteMod (ipv4DstMatch ip))) : Fw Unit).run c =
        ⟨.ok (), c, [.sendMsg dp.id (.flowMod (deleteMod (ipv4SrcMatch ip))),
          .sendMsg dp.id (.flowMod (deleteMod (ipv4DstMatch ip)))]⟩ := fun _ _ => rfl
  simp only [flushFlowsForIp, Prog.run_bind, Prog.run_read, Outcome.andThen_ok, run_log,
    run_forDatapaths hloop, Prog.run_modify, List.nil_append, List.append_nil]
  rfl

/-- What the flush of a port does: one log entry, a delete for each switch, and no record with the
port at either end left. -/
theorem run_flushFlowsForPort {port protoNum : ℕ} {m : OFPMatch}
    (hm : dstPortMatch? port protoNum = some m) (c : FirewallApp) :
    (flushFlowsForPort port protoNum).run c =
      ⟨.ok (), (c.logged (flushPortEntry c port)).dropTrust (TrustKey.hasPort port protoNum),
        logOut c (flushPortEntry c port) ++ c.datapaths.values.flatMap fun dp =>
          [.sendMsg dp.id (.flowMod (deleteMod m))]⟩ := by
  simp only [flushFlowsForPort, hm, Prog.run_bind, Prog.run_read, Outcome.andThen_ok, run_log,
    run_forDatapaths (fun dp => run_sendMsg dp (.flowMod (deleteMod m))), Prog.run_modify,
    List.nil_append, List.append_nil]
  rfl

/-- What the flush of all flows does: a delete and a new catch-all for each switch, and an empty
table. -/
theorem run_flushAllTrustFlows (c : FirewallApp) :
    flushAllTrustFlows.run c =
      ⟨.ok (), c.cleared.logged (flushAllEntry c),
        (c.datapaths.values.flatMap fun dp =>
          [.sendMsg dp.id (.flowMod (deleteMod ipv4Match)),
           .sendMsg dp.id (.flowMod (addFlowMod 300 ipv4Match [toController] 0 0 none))]) ++
        logOut c.cleared (flushAllEntry c)⟩ := by
  have hloop : ∀ (dp : Datapath) (c : FirewallApp),
      (do sendMsg dp (.flowMod (deleteMod ipv4Match))
          addFlow dp 300 ipv4Match [toController] : Fw Unit).run c =
        ⟨.ok (), c, [.sendMsg dp.id (.flowMod (deleteMod ipv4Match)),
          .sendMsg dp.id (.flowMod (addFlowMod 300 ipv4Match [toController] 0 0 none))]⟩ :=
    fun _ _ => rfl
  simp only [flushAllTrustFlows, Prog.run_bind, Prog.run_read, Outcome.andThen_ok, run_log,
    run_forDatapaths hloop, Prog.run_modify, List.nil_append]
  rfl

end SdnFirewall
