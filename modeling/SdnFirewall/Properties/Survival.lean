import SdnFirewall.Packet.Mininet
import SdnFirewall.System.Counters

/-!
# Missing headers

The ethertype and the protocol field announce a header, and the checks read it without asking
whether it was parsed. A frame without it is not let through, but it ends the handler with an
exception, unless the source of the packet is rejected before the header is read.
-/

namespace SdnFirewall

open Common OpenFlow Python

/-! ## What the checks read -/

/-- A header is missing: that of Ethernet, one that the ethertype announces, or one that the
protocol field of an IPv4 header does. -/
def Packet.Headless (pkt : Packet) : Prop :=
  pkt.ethernet = none ∨ ∃ ethPkt, pkt.ethernet = some ethPkt ∧
    (ethPkt.ethertype = ETH_TYPE_IP ∧ (pkt.ipv4 = none ∨ ∃ ipPkt, pkt.ipv4 = some ipPkt ∧
        (ipPkt.proto = 6 ∧ pkt.tcp = none ∨ ipPkt.proto = 17 ∧ pkt.udp = none)) ∨
      ethPkt.ethertype = ETH_TYPE_ARP ∧ pkt.arp = none)

/-- The headers that the checks read were parsed. Those of TCP and UDP are read only for a source
that is let through. -/
structure FirewallApp.Readable (c : FirewallApp) (now : ℚ) (pkt : Packet) (ethPkt : Ethernet) :
    Prop where
  ipv4 : ethPkt.ethertype = ETH_TYPE_IP → ∃ ipPkt, pkt.ipv4 = some ipPkt ∧
    (c.sourceVerdict now ipPkt.src = .allowed →
      (ipPkt.proto = 6 → pkt.tcp.isSome) ∧ (ipPkt.proto = 17 → pkt.udp.isSome))
  arp : ethPkt.ethertype = ETH_TYPE_ARP → pkt.arp.isSome

section Readable

variable {datapath : Datapath} {now : ℚ} {data : Bytes} {ethPkt : Ethernet} {c : FirewallApp}
variable {r : FwOutcome (Option CheckResult)}

/-- The filtering area raises exactly for a frame of which it reads a header that was not parsed. -/
theorem Filtered.returns_iff (h : Filtered datapath now data ethPkt c r) :
    (∃ result, r.val = .ok result) ↔ c.Readable now (Packet.parse data) ethPkt := by
  have hne : ETH_TYPE_IP ≠ ETH_TYPE_ARP := by decide
  cases h with
  | ignored hip harp =>
      exact iff_of_true ⟨_, rfl⟩ ⟨fun h => absurd h hip, fun h => absurd h harp⟩
  -- the only ways that raise are those to a header that is missing
  | noHeader h =>
      refine iff_of_false (by simp) fun hread => ?_
      rcases h with ⟨heth, hnone⟩ | ⟨heth, hnone⟩
      · obtain ⟨ipPkt, hip, -⟩ := hread.ipv4 heth
        rw [hnone] at hip
        exact absurd hip (by simp)
      · have harp := hread.arp heth
        rw [hnone] at harp
        exact absurd harp (by simp)
  | source ip heth hip hsrc =>
      exact iff_of_true ⟨_, rfl⟩ ⟨fun _ => ⟨ip, hip, fun h => absurd h hsrc⟩,
        fun harp => absurd (heth.symm.trans harp) hne⟩
  | noL4 ip heth hip hsrc hl4 =>
      refine iff_of_false (by simp) fun hread => ?_
      obtain ⟨ip', hip', hread⟩ := hread.ipv4 heth
      obtain rfl : ip = ip' := Option.some.inj (hip.symm.trans hip')
      rcases hl4 with ⟨hproto, hnone⟩ | ⟨hproto, hnone⟩
      · have htcp := (hread hsrc).1 hproto
        rw [hnone] at htcp
        exact absurd htcp (by simp)
      · have hudp := (hread hsrc).2 hproto
        rw [hnone] at hudp
        exact absurd hudp (by simp)
  | datagram ip udp heth hip hsrc hproto hudp =>
      refine iff_of_true ⟨_, rfl⟩ ⟨fun _ => ⟨ip, hip, fun _ => ⟨by omega, fun _ => ?_⟩⟩,
        fun harp => absurd (heth.symm.trans harp) hne⟩
      rw [hudp, Option.isSome_some]
  | segment ip tcp heth hip hsrc hproto htcp =>
      refine iff_of_true ⟨_, rfl⟩ ⟨fun _ => ⟨ip, hip, fun _ => ⟨fun _ => ?_, by omega⟩⟩,
        fun harp => absurd (heth.symm.trans harp) hne⟩
      rw [htcp, Option.isSome_some]
  | inspected ip tcp heth hip hsrc hproto htcp _ r hr =>
      obtain ⟨state, out, hrun, -⟩ := checkDpi_spec
        ⟨ip, tcp, extractTcpPayload data ip tcp⟩ (c.clocked now ip.src)
      refine iff_of_true ⟨_, by rw [← hr, hrun]; rfl⟩ ⟨fun _ => ⟨ip, hip, fun _ => ⟨fun _ => ?_,
        by omega⟩⟩, fun harp => absurd (heth.symm.trans harp) hne⟩
      rw [htcp, Option.isSome_some]
  | other ip heth hip hsrc htcp hudp =>
      exact iff_of_true ⟨_, rfl⟩ ⟨fun _ => ⟨ip, hip, fun _ => ⟨fun h => absurd h htcp,
        fun h => absurd h hudp⟩⟩, fun harp => absurd (heth.symm.trans harp) hne⟩
  | arp arpPkt heth harp r hr =>
      have hval : ∃ result, r.val = .ok result := by
        rw [← hr, run_checkArpSpoof]
        split
        · exact ⟨_, rfl⟩
        · split <;> exact ⟨_, rfl⟩
      obtain ⟨result, hval⟩ := hval
      refine iff_of_true ⟨some result, by rw [hval]; rfl⟩
        ⟨fun hip => absurd (hip.symm.trans heth) hne, fun _ => ?_⟩
      rw [harp, Option.isSome_some]

end Readable

/-! ## The outcome area returns -/

/-- Accounting for a rejection always returns. -/
theorem returns_applyResult (result : CheckResult) (src dst proto : String) (port : ℕ)
    (c : FirewallApp) : (applyResult result src dst proto port).Returns c := by
  unfold applyResult
  split
  · exact Prog.returns_pure _ _
  · refine Prog.returns_bind_iff.mpr ⟨(), ?_, (), by rw [run_log]⟩
    unfold countResult
    split <;> rfl

/-- A rejection is logged with headers that the check that rejected the packet has read. -/
theorem returns_rejectPacket {pkt : Packet} {ethPkt : Ethernet} {result : CheckResult}
    (hparsed : ethPkt.ethertype = ETH_TYPE_IP → ∃ ipPkt, pkt.ipv4 = some ipPkt ∧
      (result = .portBlocked → (l4Of pkt ipPkt).isSome)) (c : FirewallApp) :
    (rejectPacket pkt ethPkt result).Returns c := by
  unfold rejectPacket
  split
  · exact returns_applyResult ..
  · rename_i heth
    obtain ⟨ipPkt, hip, hl4⟩ := hparsed (not_not.mp heth)
    refine Prog.returns_bind_iff.mpr ⟨ipPkt, by rw [hip]; rfl, ?_⟩
    split
    · rename_i hport
      obtain ⟨args, hrun⟩ := exists_run_portBlockArgs (hl4 hport) c
      exact Prog.returns_bind_iff.mpr ⟨args, by rw [hip]; simp [hrun], returns_applyResult ..⟩
    · exact returns_applyResult ..

/-- Forwarding returns. -/
theorem returns_forwardPacket (datapath : Datapath) (msg : PacketIn) (pkt : Packet)
    (ethPkt : Ethernet) (c : FirewallApp) :
    (forwardPacket datapath msg pkt ethPkt).Returns c := by
  rw [Prog.Returns, run_forwardPacket]
  dsimp only
  split
  · exact ⟨(), rfl⟩
  · rw [run_sendOut]
    split
    · exact ⟨(), rfl⟩
    · rw [run_recordTrust]
      dsimp only
      split_ifs <;> exact ⟨(), rfl⟩

/-- So does what follows the verdict, where the headers it reads were parsed. -/
theorem returns_outcomeArea (datapath : Datapath) (msg : PacketIn) {pkt : Packet}
    {ethPkt : Ethernet} {result : CheckResult}
    (hparsed : ethPkt.ethertype = ETH_TYPE_IP → ∃ ipPkt, pkt.ipv4 = some ipPkt ∧
      (result = .portBlocked → (l4Of pkt ipPkt).isSome)) (c : FirewallApp) :
    (outcomeArea datapath msg pkt ethPkt result).Returns c := by
  unfold outcomeArea
  refine Prog.returns_bind_iff.mpr ⟨(), rfl, Prog.returns_bind_iff.mpr ⟨(), rfl, ?_⟩⟩
  split
  · exact Prog.returns_pure _ _
  · split
    · exact returns_rejectPacket hparsed _
    · exact returns_forwardPacket ..

/-! ## The handler -/

section Handler

variable {c : FirewallApp} {datapath : Datapath} {now : ℚ} {msg : PacketIn}

/-- A frame that gets past the guards is readable. -/
def FirewallApp.Reads (c : FirewallApp) (now : ℚ) (msg : PacketIn) : Prop :=
  msg.Proceeds → ∃ ethPkt, (Packet.parse msg.data).ethernet = some ethPkt ∧
    c.Readable now (Packet.parse msg.data) ethPkt

/-- The handler raises exactly for a frame of which it reads a header that was not parsed. -/
theorem returns_packetInHandler_iff :
    (packetInHandler datapath now msg).Returns c ↔ c.Reads now msg := by
  by_cases hproceeds : msg.Proceeds
  swap
  · rw [packetInHandler_of_not_proceeds hproceeds]
    exact iff_of_true (Prog.returns_pure _ _) fun h => absurd h hproceeds
  simp only [FirewallApp.Reads, hproceeds, forall_const]
  cases heth : (Packet.parse msg.data).ethernet with
  | none =>
      refine iff_of_false ?_ (by simp)
      rintro ⟨a, ha⟩
      simp [packetInHandler, hproceeds.1, hproceeds.2, heth] at ha
  | some ethPkt =>
      -- behind the Ethernet header only the filtering area can raise
      have hf := filtered_filterOf c datapath now msg ethPkt
      simp only [Option.some.injEq, exists_eq_left', ← hf.returns_iff]
      rw [Prog.Returns, run_packetInHandler (hproceeds.ethernet?.trans heth), Outcome.andThen]
      cases hval : (c.filterOf datapath now msg ethPkt).val with
      | error e => simp
      | ok result =>
          refine iff_of_true ?_ ⟨result, rfl⟩
          cases result with
          | none => exact ⟨(), rfl⟩
          | some result =>
              exact returns_outcomeArea datapath msg (fun hip => hf.parsed hval hip) _

/-- A frame without one of its headers is not allowed. -/
theorem not_allowed_of_headless (h : (Packet.parse msg.data).Headless) :
    c.verdict? datapath now msg ≠ some .allowed := by
  intro hv
  obtain ⟨ethPkt, heth, hval⟩ := verdict?_eq_some.mp hv
  have hparsed := ethernet_of_ethernet? heth
  have hf := filtered_filterOf c datapath now msg ethPkt
  -- an allowed frame has been read up to the header that is said to be missing
  rcases h with hnone | ⟨ethPkt', heth', ⟨htype, hip⟩ | ⟨htype, harp⟩⟩
  · rw [hparsed] at hnone
    exact absurd hnone (by simp)
  · obtain rfl : ethPkt = ethPkt' := Option.some.inj (hparsed.symm.trans heth')
    obtain ⟨ip, hsome, -, htcp, hudp⟩ := hf.allowed_ipv4 hval htype
    rcases hip with hnone | ⟨ip', hip', hl4⟩
    · rw [hsome] at hnone
      exact absurd hnone (by simp)
    · obtain rfl : ip = ip' := Option.some.inj (hsome.symm.trans hip')
      rcases hl4 with ⟨hproto, hnone⟩ | ⟨hproto, hnone⟩
      · obtain ⟨tcp, htcp, -⟩ := htcp hproto
        rw [hnone] at htcp
        exact absurd htcp (by simp)
      · obtain ⟨udp, hudp, -⟩ := hudp hproto
        rw [hnone] at hudp
        exact absurd hudp (by simp)
  · obtain rfl : ethPkt = ethPkt' := Option.some.inj (hparsed.symm.trans heth')
    rcases hf.of_arp htype with ⟨-, hr⟩ | ⟨arpPkt, hsome, -⟩
    · rw [hr] at hval
      exact absurd hval (by simp)
    · rw [harp] at hsome
      exact absurd hsome (by simp)

/-- A frame that is not allowed is not sent out: what the switches hear is to drop its source. -/
theorem not_outputs_of_not_allowed (hv : c.verdict? datapath now msg ≠ some .allowed) {d : ℕ}
    {m : OFPMsg} (hm : m ∈ sentTo d ((packetInHandler datapath now msg).run c).out) :
    ¬ m.Outputs := by
  cases hverdict : c.verdict? datapath now msg with
  | none =>
      rw [(packetIn_of_no_verdict hverdict).1] at hm
      exact absurd hm List.not_mem_nil
  | some result =>
      have hrej : result ≠ .allowed := fun h => hv (by rw [hverdict, h])
      obtain ⟨ethPkt, -, -, out, hout, hquiet⟩ := packetIn_rejected hverdict hrej
      rw [hout, sentTo_append, sentTo_eq_nil_of_broadcast hquiet, List.append_nil] at hm
      obtain ⟨-, ⟨⟨ip, rfl⟩, -⟩ | ⟨⟨ip, rfl⟩, -⟩⟩ :=
        (filtered_filterOf c datapath now msg ethPkt).sendMsg_mem (mem_sentTo.mp hm)
      · exact fun houtputs => houtputs.2.1 rfl
      · exact fun houtputs => houtputs.2.1 rfl

/-- The handler ends without an exception, and sends no frame out that lacks a header. -/
def FirewallApp.Survives (c : FirewallApp) (datapath : Datapath) (now : ℚ) (msg : PacketIn) :
    Prop :=
  (packetInHandler datapath now msg).Returns c ∧
    ((Packet.parse msg.data).Headless →
      ∀ d, ∀ m ∈ sentTo d ((packetInHandler datapath now msg).run c).out, ¬ m.Outputs)

end Handler

/-- The handler survives exactly the frames of which it reads no header that was not parsed. -/
theorem survives_iff_reads (c : FirewallApp) (datapath : Datapath) (now : ℚ) (msg : PacketIn) :
    c.Survives datapath now msg ↔ c.Reads now msg := by
  rw [FirewallApp.Survives, returns_packetInHandler_iff, and_iff_left_iff_imp]
  exact fun _ hheadless d m hm => not_outputs_of_not_allowed (not_allowed_of_headless hheadless) hm

/-- A TCP segment of host 1 that ends within the TCP header. -/
def cutHeader : PacketIn := packetInFrom 1 ((tcpFrame 1 2 100 80 []).take 40)

/-- Right after the handshake the segment ends the handler with an exception. -/
theorem not_survives_cutHeader :
    ¬ (World.run builtinCompile builtinEngine [.handshake 1]).ctl.Survives ⟨1⟩ 0 cutHeader := by
  have hraise : ((packetInHandler ⟨1⟩ 0 cutHeader).run
      (World.run builtinCompile builtinEngine [.handshake 1]).ctl).val =
        .error .attributeError := by
    decide +kernel
  rintro ⟨⟨a, ha⟩, -⟩
  rw [hraise] at ha
  exact absurd ha (by simp)

end SdnFirewall
