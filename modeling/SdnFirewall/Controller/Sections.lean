import SdnFirewall.Common.Sections
import SdnFirewall.Controller.Handlers

/-!
# What the sections of a handler leave alone

Whatever happens between its sections, the handler of a packet-in leaves the connections, the
signatures and the rules alone, and speaks to its own switch only.
-/

namespace SdnFirewall

open Common OpenFlow Python

/-- What the handler of a packet-in leaves alone. -/
def FirewallApp.wiring (c : FirewallApp) :
    Dict ℕ Datapath × DPIEngine × Finset String × Finset (ℕ × ℕ) × Finset String :=
  (c.datapaths, c.dpi, c.blockedIps, c.blockedPorts, c.allowedIps)

/-- The action is a broadcast, or a message to the switch that installs nothing of the trust
priority but for IPv4 frames. -/
def Effect.LocalTo (d : ℕ) : Effect → Prop
  | .broadcast _ => True
  | .sendMsg d' m => d' = d ∧ ∀ e, m.installs? = some e → e.priority = TRUST_FLOW_PRIORITY →
      e.ofMatch.ethType = some ETH_TYPE_IP

/-- A call of the handler of a packet-in. -/
abbrev Local {α : Type} (d : ℕ) (p : Fw α) : Prop :=
  p.Framed FirewallApp.wiring (Effect.LocalTo d)

section Local

variable (datapath : Datapath)

/-- Logging leaves the connections and the rules alone, and its broadcasts go to no switch. -/
theorem log_local (d : ℕ) (level msg src dst extra : String) :
    Local d (log level msg src dst extra) := by
  refine Prog.framed_bind (Prog.framed_modify fun _ => rfl) fun _ => ?_
  refine Prog.framed_bind (Prog.framed_call trivial) fun _ => ?_
  exact Prog.framed_bind Prog.framed_read fun _ => Prog.framed_call trivial

/-- An entry is sent to the switch of the handler; one of trust priority must be about IPv4. -/
theorem addFlow_local (priority : ℕ) (m : OFPMatch) (actions : List OFPActionOutput)
    (idle hard : ℕ) (buffer : Option ℕ)
    (h : priority = TRUST_FLOW_PRIORITY → m.ethType = some ETH_TYPE_IP) :
    Local datapath.id (addFlow datapath priority m actions idle hard buffer) := by
  refine Prog.framed_call ⟨rfl, fun e he hp => ?_⟩
  obtain rfl : _ = e := Option.some.inj he
  exact h hp

/-- Creating a record leaves the connections and the rules alone and sends nothing. -/
theorem getOrCreateFlowEntry_local (d : ℕ) (key : TrustKey) :
    Local d (getOrCreateFlowEntry key) := by
  refine Prog.framed_bind Prog.framed_read fun c => ?_
  split
  · exact Prog.framed_pure _
  · exact Prog.framed_bind (Prog.framed_modify fun _ => rfl) fun _ => Prog.framed_pure _

/-- So does changing one. -/
theorem updateEntry_local (d : ℕ) (ref : TrustRef) (f : TrustEntry → TrustEntry) :
    Local d (updateEntry ref f) := by
  refine Prog.framed_modify fun c => ?_
  unfold FirewallApp.updateEntry
  split
  · split <;> rfl
  · rfl

/-- So does inspection, whose log call only broadcasts. -/
theorem checkDpi_local (d : ℕ) (ipPkt : IPv4) (tcpPkt : Tcp) (payload : Bytes) :
    Local d (checkDpi ipPkt tcpPkt payload) := by
  refine Prog.framed_bind (getOrCreateFlowEntry_local _ _) fun r => ?_
  dsimp only
  split
  -- the flow is blocked already, or there is no payload to inspect
  · exact Prog.framed_pure _
  · split
    · exact Prog.framed_pure _
    · refine Prog.framed_bind (updateEntry_local ..) fun _ => ?_
      refine Prog.framed_bind Prog.framed_read fun c => ?_
      split
      · refine Prog.framed_bind (updateEntry_local ..) fun _ => ?_
        refine Prog.framed_bind (Prog.framed_modify fun _ => rfl) fun _ => ?_
        exact Prog.framed_bind (log_local ..) fun _ => Prog.framed_pure _
      · exact Prog.framed_pure _

/-- Both trust entries are about IPv4 and go to the switch of the handler. -/
theorem installTrustFlow_local (ipPkt : IPv4) (l4Pkt : L4) (inPort outPort : ℕ) :
    Local datapath.id (installTrustFlow datapath ipPkt l4Pkt inPort outPort) := by
  unfold installTrustFlow
  dsimp only
  split
  -- there and back, both matching IPv4
  · refine Prog.framed_bind (addFlow_local _ _ _ _ _ _ _ fun _ => trustMatch_ethType ..) fun _ => ?_
    refine Prog.framed_bind (addFlow_local _ _ _ _ _ _ _ fun _ => trustMatch_ethType ..) fun _ => ?_
    exact Prog.framed_bind (log_local ..) fun _ => Prog.framed_pure _
  · exact Prog.framed_pure _

/-- Counting a packet sends at most these two. -/
theorem recordTrust_local (ipPkt : IPv4) (l4Pkt : L4) (inPort outPort : ℕ) :
    Local datapath.id (recordTrust datapath ipPkt l4Pkt inPort outPort) := by
  unfold recordTrust
  split
  swap
  · exact Prog.framed_pure _
  refine Prog.framed_bind (getOrCreateFlowEntry_local _ _) fun r => ?_
  dsimp only
  split
  · exact Prog.framed_pure _
  refine Prog.framed_bind (updateEntry_local ..) fun _ => ?_
  split
  · exact Prog.framed_pure _
  refine Prog.framed_bind (installTrustFlow_local ..) fun done => ?_
  split
  · exact Prog.framed_bind (updateEntry_local ..) fun _ => Prog.framed_modify fun _ => rfl
  · exact Prog.framed_pure _

/-- Checks in sequence are local if each of them is. -/
theorem runChecks_local (d : ℕ) {checks : List (Fw CheckResult)}
    (h : ∀ check ∈ checks, Local d check) : Local d (runChecks checks) := by
  induction checks with
  | nil => exact Prog.framed_pure _
  | cons check checks ih =>
      refine Prog.framed_bind (h check List.mem_cons_self) fun result => ?_
      split
      · exact Prog.framed_pure _
      · exact ih fun check' hcheck' => h check' (List.mem_cons_of_mem _ hcheck')

/-- The port check reads the rules and leaves them alone. -/
theorem checkPortBlock_local (d protoNum dstPort : ℕ) :
    Local d (checkPortBlock protoNum dstPort) := by
  refine Prog.framed_bind Prog.framed_read fun c => ?_
  split <;> exact Prog.framed_pure _

/-- The rate check sends its drop entry to the switch of the handler. -/
theorem checkIpRateLimit_local (now : ℚ) (ip : String) :
    Local datapath.id (checkIpRateLimit datapath now ip) := by
  refine Prog.framed_bind Prog.framed_read fun c => ?_
  refine Prog.framed_bind (Prog.framed_modify fun _ => rfl) fun _ => ?_
  split
  -- the drop entry is of priority 200
  · exact Prog.framed_bind (addFlow_local _ _ _ _ _ _ _ fun h => absurd h (by decide))
      fun _ => Prog.framed_pure _
  · exact Prog.framed_bind (Prog.framed_modify fun _ => rfl) fun _ => Prog.framed_pure _

/-- So does the check of ARP claims. -/
theorem checkArpSpoof_local (srcMac ipSrc : String) :
    Local datapath.id (checkArpSpoof datapath srcMac ipSrc) := by
  refine Prog.framed_bind Prog.framed_read fun c => ?_
  split
  · exact Prog.framed_bind (Prog.framed_modify fun _ => rfl) fun _ => Prog.framed_pure _
  · split
    -- so is this one
    · exact Prog.framed_bind (addFlow_local _ _ _ _ _ _ _ fun h => absurd h (by decide))
        fun _ => Prog.framed_pure _
    · exact Prog.framed_pure _

/-- The checks behind the source checks are local. -/
theorem protocolHandler_local (d : ℕ) (pkt : Packet) (ipPkt : IPv4) (data : Bytes) :
    Local d (protocolHandler pkt ipPkt data) := by
  unfold protocolHandler
  split
  · exact Prog.framed_pure _
  split
  · refine Prog.framed_bind (Prog.framed_orRaise _ _) fun tcpPkt => runChecks_local d ?_
    -- a segment passes three checks, of which the one of the flags does nothing but compute
    simp only [List.forall_mem_cons]
    exact ⟨checkPortBlock_local .., Prog.framed_pure _, checkDpi_local ..,
      fun _ h => absurd h List.not_mem_nil⟩
  split
  · exact Prog.framed_bind (Prog.framed_orRaise _ _) fun _ => checkPortBlock_local ..
  · exact Prog.framed_pure _

/-- So are the source checks, whose drop entry goes to the switch of the handler. -/
theorem sourceChecks_local (now : ℚ) (ip : String) :
    Local datapath.id (runChecks [checkIpBlock ip, checkIpRateLimit datapath now ip]) := by
  refine runChecks_local _ ?_
  simp only [List.forall_mem_cons]
  refine ⟨?_, checkIpRateLimit_local .., fun _ h => absurd h List.not_mem_nil⟩
  refine Prog.framed_bind Prog.framed_read fun c => ?_
  split
  · exact Prog.framed_pure _
  · split <;> exact Prog.framed_pure _

/-- So is the filtering area as a whole. -/
theorem filterArea_local (now : ℚ) (data : Bytes) (pkt : Packet) (ethPkt : Ethernet) :
    Local datapath.id (filterArea datapath now data pkt ethPkt) := by
  unfold filterArea
  split
  · refine Prog.framed_bind ?_ fun _ => Prog.framed_pure _
    refine Prog.framed_bind (Prog.framed_orRaise _ _) fun ipPkt => ?_
    refine Prog.framed_bind (sourceChecks_local ..) fun result => ?_
    split
    · exact Prog.framed_pure _
    · exact protocolHandler_local ..
  split
  · refine Prog.framed_bind ?_ fun _ => Prog.framed_pure _
    exact Prog.framed_bind (Prog.framed_orRaise _ _) fun _ => checkArpSpoof_local ..
  · exact Prog.framed_pure _

/-- The account of a rejection is a counter and a log entry. -/
theorem applyResult_local (d : ℕ) (result : CheckResult) (src dst proto : String) (port : ℕ) :
    Local d (applyResult result src dst proto port) := by
  unfold applyResult
  split
  · exact Prog.framed_pure _
  · refine Prog.framed_bind ?_ fun _ => log_local ..
    unfold countResult
    split
    · exact Prog.framed_modify fun _ => rfl
    · exact Prog.framed_pure _

/-- Rejecting a packet leaves the connections and the rules alone. -/
theorem rejectPacket_local (d : ℕ) (pkt : Packet) (ethPkt : Ethernet) (result : CheckResult) :
    Local d (rejectPacket pkt ethPkt result) := by
  unfold rejectPacket
  split
  · exact applyResult_local ..
  refine Prog.framed_bind (Prog.framed_orRaise _ _) fun ipPkt => ?_
  split
  · refine Prog.framed_bind ?_ fun _ => applyResult_local ..
    unfold portBlockArgs
    split
    · exact Prog.framed_bind (Prog.framed_orRaise _ _) fun _ => Prog.framed_pure _
    · split
      · exact Prog.framed_bind (Prog.framed_orRaise _ _) fun _ => Prog.framed_pure _
      · exact Prog.framed_pure _
  · exact applyResult_local ..

/-- The packet-out and the trust entries go to the switch of the handler. -/
theorem sendOut_local (msg : PacketIn) (pkt : Packet) (ethPkt : Ethernet) (outPort : ℕ) :
    Local datapath.id (sendOut datapath msg pkt ethPkt outPort) := by
  -- a packet-out installs nothing
  have hout : ∀ m e, (OFPMsg.packetOut m).installs? = some e → e.priority = TRUST_FLOW_PRIORITY →
      e.ofMatch.ethType = some ETH_TYPE_IP := fun _ _ he => absurd he (by simp [OFPMsg.installs?])
  refine Prog.framed_bind (Prog.framed_call ⟨rfl, hout _⟩) fun _ => ?_
  split
  · split
    · exact Prog.framed_pure _
    · split
      · exact Prog.framed_pure _
      · exact recordTrust_local ..
  · exact Prog.framed_pure _

/-- So does the learned entry, which is not of trust priority. -/
theorem forwardPacket_local (msg : PacketIn) (pkt : Packet) (ethPkt : Ethernet) :
    Local datapath.id (forwardPacket datapath msg pkt ethPkt) := by
  refine Prog.framed_bind (Prog.framed_modify fun _ => rfl) fun _ => ?_
  refine Prog.framed_bind Prog.framed_read fun c => ?_
  dsimp only
  split
  -- the learned entry is of priority 1
  · split
    · exact addFlow_local _ _ _ _ _ _ _ fun h => absurd h (by decide)
    · exact Prog.framed_bind (addFlow_local _ _ _ _ _ _ _ fun h => absurd h (by decide))
        fun _ => sendOut_local ..
  · exact sendOut_local ..

/-- Whatever the verdict, only the switch of the handler is spoken to. -/
theorem outcomeArea_local (msg : PacketIn) (pkt : Packet) (ethPkt : Ethernet)
    (result : CheckResult) : Local datapath.id (outcomeArea datapath msg pkt ethPkt result) := by
  refine Prog.framed_bind (Prog.framed_modify fun _ => rfl) fun _ => ?_
  refine Prog.framed_bind (Prog.framed_modify fun _ => rfl) fun _ => ?_
  split
  · exact Prog.framed_pure _
  split
  · exact rejectPacket_local ..
  · exact forwardPacket_local ..

/-- The handler of a packet-in is local to its switch. -/
theorem packetInHandler_local (now : ℚ) (msg : PacketIn) :
    Local datapath.id (packetInHandler datapath now msg) := by
  unfold packetInHandler
  split
  · exact Prog.framed_pure _
  split
  · exact Prog.framed_pure _
  refine Prog.framed_bind (Prog.framed_orRaise _ _) fun ethPkt => ?_
  refine Prog.framed_bind (filterArea_local ..) fun result => ?_
  split
  · exact Prog.framed_pure _
  · exact outcomeArea_local ..

/-- The first section of a handshake files the switch and forgets the address bindings; what is left
of it is local to the switch. -/
theorem settle_switchHandshakeHandler (c : FirewallApp) :
    ((switchHandshakeHandler datapath).settle c).2 =
        { c with datapaths := c.datapaths.set datapath.id datapath, arpTable := .empty } ∧
      Local datapath.id ((switchHandshakeHandler datapath).settle c).1 := by
  -- two entries are left to send, of the priorities 0 and 300
  have hrest : Local datapath.id (do
      addFlow datapath 0 {} [toController]
      addFlow datapath 300 ipv4Match [toController]) :=
    Prog.framed_bind (addFlow_local _ _ _ _ _ _ _ fun h => absurd h (by decide)) fun _ =>
      addFlow_local _ _ _ _ _ _ _ fun h => absurd h (by decide)
  exact ⟨rfl, (hrest.framedAt _).settle.2⟩

end Local

end SdnFirewall
