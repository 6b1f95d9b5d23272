import SdnFirewall.Packet.Mininet
import SdnFirewall.System.World

/-!
# Every packet-in goes out once or not at all

An allowed frame leaves the switch by one message: a packet-out, or the learned entry that releases
it from its buffer. No other message of the handler sends the frame anywhere, and none that is sent
for a frame that is not allowed touches its buffer.
-/

namespace SdnFirewall

open Common OpenFlow Python

/-- The buffer a message is about. -/
def msgBuffer : OFPMsg → ℕ
  | .flowMod mod => mod.bufferId
  | .packetOut out => out.bufferId

/-- The message names the buffer the frame of a packet-in is kept in. -/
def NamesBuffer (msg : PacketIn) (m : OFPMsg) : Prop :=
  msg.bufferId ≠ OFP_NO_BUFFER ∧ msgBuffer m = msg.bufferId

/-- The message sends the frame of a packet-in out of a port: a packet-out that holds the bytes of
the frame when no buffer does, or an added entry that releases the buffer. -/
inductive SendsFrame (msg : PacketIn) (port : ℕ) : OFPMsg → Prop
  | packetOut (out : OFPPacketOut) (hbuffer : out.bufferId = msg.bufferId)
      (hactions : out.actions = [{ port }])
      (hdata : out.data = if msg.bufferId = OFP_NO_BUFFER then some msg.data else none) :
      SendsFrame msg port (.packetOut out)
  | flowMod (mod : OFPFlowMod) (hadd : mod.command = .add)
      (hbuffered : msg.bufferId ≠ OFP_NO_BUFFER) (hbuffer : mod.bufferId = msg.bufferId)
      (hactions : mod.actions = [{ port }]) : SendsFrame msg port (.flowMod mod)

/-- The packet-out sends the frame of its packet-in. -/
theorem sendsFrame_packetOutMsg (msg : PacketIn) (port : ℕ) :
    SendsFrame msg port (packetOutMsg msg port) :=
  .packetOut _ rfl rfl rfl

/-- The messages of a trust installation name no buffer. -/
theorem bufferId_of_mem_grants {c : FirewallApp} {msg : PacketIn} {outPort : ℕ}
    {target : Option (IPv4 × L4)} {mod : OFPFlowMod} (h : mod ∈ c.grants msg outPort target) :
    mod.bufferId = OFP_NO_BUFFER := by
  cases target with
  | none => exact absurd h List.not_mem_nil
  | some target =>
      obtain ⟨ipPkt, l4Pkt⟩ := target
      simp only [FirewallApp.grants] at h
      split at h
      · simp only [trustMods, List.mem_cons, List.not_mem_nil, or_false] at h
        rcases h with rfl | rfl <;> rfl
      · exact absurd h List.not_mem_nil

/-- Of the messages that forward a frame exactly one sends it out. -/
theorem filter_outputs_forwardMsgs (c : FirewallApp) (msg : PacketIn) (pkt : Packet)
    (ethPkt : Ethernet) (outPort : ℕ) :
    ∃ m, ((c.forwardMsgs msg pkt ethPkt outPort).filter fun m => m.Outputs) = [m] ∧
      SendsFrame msg outPort m := by
  have hout : (packetOutMsg msg outPort).Outputs := List.cons_ne_nil _ _
  unfold FirewallApp.forwardMsgs
  by_cases hl : Learns ethPkt outPort
  · rw [if_pos hl]
    -- the learned entry releases a buffered frame, and then there is no packet-out
    by_cases hb : msg.bufferId ≠ OFP_NO_BUFFER
    · have hid : (learnedMod msg ethPkt outPort).bufferId = msg.bufferId := by
        rw [learnedMod, if_pos hb]
        rfl
      have hmod : (OFPMsg.flowMod (learnedMod msg ethPkt outPort)).Outputs :=
        ⟨rfl, by rw [hid]; exact hb, List.cons_ne_nil _ _⟩
      rw [if_pos hb]
      exact ⟨_, List.filter_cons_of_pos (decide_eq_true hmod), .flowMod _ rfl hb hid rfl⟩
    · have hmod : ¬ (OFPMsg.flowMod (learnedMod msg ethPkt outPort)).Outputs := by
        intro h
        refine h.2.1 ?_
        rw [learnedMod, if_neg hb]
        rfl
      rw [if_neg hb, List.filter_cons_of_neg (by simpa using hmod)]
      exact ⟨_, List.filter_cons_of_pos (decide_eq_true hout), sendsFrame_packetOutMsg ..⟩
  -- the trust entries name no buffer
  · have hnone : (((c.grants msg outPort (trustTarget? pkt ethPkt outPort)).map
        OFPMsg.flowMod).filter fun m => m.Outputs) = [] := by
      rw [List.filter_eq_nil_iff]
      intro m hm
      obtain ⟨mod, hmod, rfl⟩ := List.mem_map.mp hm
      rw [decide_eq_true_eq]
      exact fun h => h.2.1 (bufferId_of_mem_grants hmod)
    refine ⟨packetOutMsg msg outPort, ?_, sendsFrame_packetOutMsg ..⟩
    simp only [if_neg hl, List.filter_cons, hout, decide_true, if_true, hnone]

/-- What the switches are sent for a frame that is not allowed: at most the drop of a source or of
the ARP frames of an address, which outputs nothing and names no buffer. -/
theorem silent_of_not_allowed {c : FirewallApp} {datapath : Datapath} {now : ℚ} {msg : PacketIn}
    (h : c.verdict? datapath now msg ≠ some .allowed) {d : ℕ} {m : OFPMsg}
    (hm : m ∈ sentTo d ((packetInHandler datapath now msg).run c).out) :
    ¬ m.Outputs ∧ msgBuffer m = OFP_NO_BUFFER := by
  cases hv : c.verdict? datapath now msg with
  | none =>
      rw [(packetIn_of_no_verdict hv).1] at hm
      exact absurd hm List.not_mem_nil
  | some result =>
      have hrej : result ≠ .allowed := fun hr => h (hr ▸ hv)
      obtain ⟨ethPkt, -, -, out, hout, hquiet⟩ := packetIn_rejected hv hrej
      rw [hout, sentTo_append, sentTo_eq_nil_of_broadcast hquiet, List.append_nil] at hm
      obtain ⟨-, ⟨⟨ip, rfl⟩, -⟩ | ⟨⟨ip, rfl⟩, -⟩⟩ :=
        (filtered_filterOf c datapath now msg ethPkt).sendMsg_mem (mem_sentTo.mp hm)
      · exact ⟨fun hout => hout.2.1 rfl, rfl⟩
      · exact ⟨fun hout => hout.2.1 rfl, rfl⟩

/-- Only IPv4 and ARP frames get a verdict. -/
theorem ethertype_of_verdict? {c : FirewallApp} {datapath : Datapath} {now : ℚ} {msg : PacketIn}
    {result : CheckResult} (h : c.verdict? datapath now msg = some result) :
    ∃ ethPkt, msg.ethernet? = some ethPkt ∧
      (ethPkt.ethertype = ETH_TYPE_IP ∨ ethPkt.ethertype = ETH_TYPE_ARP) := by
  obtain ⟨ethPkt, heth, hval⟩ := verdict?_eq_some.mp h
  exact ⟨ethPkt, heth, (filtered_filterOf c datapath now msg ethPkt).ethertype_of_verdict hval⟩

/-- A frame that is allowed is sent out by exactly one message, to the port its destination has
once its sender has been learned, or to all ports; a frame that is ignored or not allowed is sent
out by none, and none names its buffer. -/
theorem packetIn_output (c : FirewallApp) (datapath : Datapath) (now : ℚ) (msg : PacketIn) :
    let sent := fun d => sentTo d ((packetInHandler datapath now msg).run c).out
    (∀ ethPkt, msg.ethernet? = some ethPkt →
      (ethPkt.ethertype = ETH_TYPE_IP ∨ ethPkt.ethertype = ETH_TYPE_ARP) →
      c.verdict? datapath now msg = some .allowed →
      (∃ m, ((sent datapath.id).filter fun m => m.Outputs) = [m] ∧
        SendsFrame msg
          ((((c.learnMac datapath.id ethPkt.src msg.inPort.no).portsOf datapath.id).get?
            ethPkt.dst).getD OFPP_FLOOD) m) ∧
      ∀ d, d ≠ datapath.id → sent d = []) ∧
    ((∀ ethPkt, msg.ethernet? = some ethPkt →
        ethPkt.ethertype ≠ ETH_TYPE_IP ∧ ethPkt.ethertype ≠ ETH_TYPE_ARP) ∨
      c.verdict? datapath now msg ≠ some .allowed →
      ∀ d, ∀ m ∈ sent d, ¬ m.Outputs ∧ ¬ NamesBuffer msg m) := by
  intro sent
  constructor
  · intro ethPkt heth _ hv
    obtain ⟨ethPkt', heth', -, hsent⟩ := packetIn_allowed hv
    obtain rfl : ethPkt' = ethPkt := by simpa [heth] using heth'.symm
    refine ⟨?_, fun d hd => (hsent d).trans (if_neg hd)⟩
    have hself : sent datapath.id = _ := (hsent datapath.id).trans (if_pos rfl)
    rw [hself]
    exact filter_outputs_forwardMsgs ..
  · intro h d m hm
    have hv : c.verdict? datapath now msg ≠ some .allowed := by
      rcases h with h | h
      · intro hv
        obtain ⟨ethPkt, heth, htype⟩ := ethertype_of_verdict? hv
        exact htype.elim (h ethPkt heth).1 (h ethPkt heth).2
      · exact h
    -- without an allowed verdict the checks alone have sent something
    obtain ⟨hout, hbuffer⟩ := silent_of_not_allowed hv hm
    exact ⟨hout, fun hnames => hnames.1 (hnames.2.symm.trans hbuffer)⟩

/-- Host 2 has been heard of when host 1 sends it an ARP frame that the switch has buffered. -/
def afterArpOfHost2 : FirewallApp :=
  (World.run builtinCompile builtinEngine
    [.handshake 1, .packetIn 1 0 (packetInFrom 2 (arpFrame 2 1 2))]).ctl

def bufferedArp : PacketIn := { packetInFrom 1 (arpFrame 1 2 1) with bufferId := 7 }

/-- The buffered frame is sent out once, by the port host 2 was heard at. -/
theorem packetIn_output_bufferedArp :
    ∃ m, ((sentTo 1 ((packetInHandler ⟨1⟩ 1 bufferedArp).run afterArpOfHost2).out).filter
      fun m => m.Outputs) = [m] ∧ SendsFrame bufferedArp 3 m :=
  ((packetIn_output afterArpOfHost2 ⟨1⟩ 1 bufferedArp).1
    ⟨"00:00:00:00:00:02", "00:00:00:00:00:01", ETH_TYPE_ARP⟩ (by decide +kernel)
    (Or.inr rfl) (by decide +kernel)).1

end SdnFirewall
