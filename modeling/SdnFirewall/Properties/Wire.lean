import SdnFirewall.Controller.Wire
import SdnFirewall.Properties.Policy
import SdnFirewall.Properties.Truncation
import SdnFirewall.System.Learning

/-!
# What is sent reaches the switch

Everything the controller sends in any run can be written as bytes and is told from them: the
addresses in its matches are addresses, and its numbers and frames fit where they are written. So
the messages of the system are those that a switch reads from its stream.
-/

namespace SdnFirewall

open Common OpenFlow Python

/-! ## Matches -/

/-- The match of all frames is well-formed. -/
theorem wellFormed_any : ({} : OFPMatch).WellFormed := by
  intro k v hv
  cases k <;> cases hv

/-- The match of the catch-all is well formed. -/
theorem wellFormed_ipv4Match : ipv4Match.WellFormed := by
  intro k v hv
  cases k <;> cases hv
  exact .int (by decide)

/-- So is the one on a source address. -/
theorem wellFormed_ipv4SrcMatch (a : IPv4Address) : (ipv4SrcMatch a.text).WellFormed := by
  intro k v hv
  cases k <;> cases hv
  · exact .int (by decide)
  · exact .ipv4Addr a

/-- And the one on a destination address. -/
theorem wellFormed_ipv4DstMatch (a : IPv4Address) : (ipv4DstMatch a.text).WellFormed := by
  intro k v hv
  cases k <;> cases hv
  · exact .int (by decide)
  · exact .ipv4Addr a

/-- And the one on the sender of an ARP frame. -/
theorem wellFormed_arpSpaMatch (a : IPv4Address) : (arpSpaMatch a.text).WellFormed := by
  intro k v hv
  cases k <;> cases hv
  · exact .int (by decide)
  · exact .ipv4Addr a

/-- A match on a port is well formed if the port has sixteen bits. -/
theorem wellFormed_dstPortMatch? {port proto : ℕ} {m : OFPMatch}
    (h : dstPortMatch? port proto = some m) (hport : port < 2 ^ 16) : m.WellFormed := by
  rcases dstPortMatch?_eq_some h with ⟨-, rfl⟩ | ⟨-, rfl⟩
  · intro k v hv
    cases k <;> cases hv
    · exact .int (by decide)
    · exact .int (by decide)
    · exact .int hport
  · intro k v hv
    cases k <;> cases hv
    · exact .int (by decide)
    · exact .int (by decide)
    · exact .int hport

/-- A learned match is well formed, as its stations were parsed. -/
theorem wellFormed_learnedMatch {inPort : ℕ} {ethPkt : Ethernet} (hport : inPort < 2 ^ 32)
    {dst src : MacAddress} (hdst : ethPkt.dst = dst.text) (hsrc : ethPkt.src = src.text) :
    (learnedMatch inPort ethPkt).WellFormed := by
  intro k v hv
  cases k <;> cases hv
  · exact .int hport
  · exact hdst ▸ .macAddr dst
  · exact hsrc ▸ .macAddr src

/-- A trust match is well formed, as its addresses and ports were. -/
theorem wellFormed_trustMatch {proto : ℕ} (hproto : proto < 2 ^ 8) (src dst : IPv4Address)
    {srcPort dstPort : ℕ} (hsrcPort : srcPort < 2 ^ 16) (hdstPort : dstPort < 2 ^ 16) :
    (trustMatch proto (src.text, srcPort) (dst.text, dstPort)).WellFormed := by
  unfold trustMatch
  split
  · intro k v hv
    cases k <;> cases hv
    · exact .int (by decide)
    · exact .int hproto
    · exact .ipv4Addr src
    · exact .ipv4Addr dst
    · exact .int hsrcPort
    · exact .int hdstPort
  · intro k v hv
    cases k <;> cases hv
    · exact .int (by decide)
    · exact .int hproto
    · exact .ipv4Addr src
    · exact .ipv4Addr dst
    · exact .int hsrcPort
    · exact .int hdstPort

/-! ## Messages -/

/-- The message can be written, and told from its bytes. -/
structure Sendable (m : OFPMsg) : Prop where
  wellFormed : m.WellFormed
  inRange : m.InRange

/-- An entry with at most one action can be sent if its numbers are in range. -/
theorem sendable_addFlowMod {priority idleTimeout hardTimeout : ℕ} {ofMatch : OFPMatch}
    {actions : List OFPActionOutput} {bufferId : Option ℕ} (hmatch : ofMatch.WellFormed)
    (hpriority : priority < 2 ^ 16) (hidle : idleTimeout < 2 ^ 16) (hhard : hardTimeout < 2 ^ 16)
    (hactions : ∀ a ∈ actions, a.InRange) (hlen : actions.length ≤ 1)
    (hbuffer : ∀ no ∈ bufferId, no < 2 ^ 32) :
    Sendable (.flowMod (addFlowMod priority ofMatch actions idleTimeout hardTimeout bufferId)) where
  wellFormed := ⟨hmatch, fun h => by cases h⟩
  inRange :=
    { idleTimeout := hidle
      hardTimeout := hhard
      priority := hpriority
      bufferId := by
        cases bufferId with
        | none => exact (by decide : OFP_NO_BUFFER < 2 ^ 32)
        | some no => exact hbuffer no rfl
      outPort := (by decide : 0 < 2 ^ 32)
      outGroup := (by decide : 0 < 2 ^ 32)
      actions := hactions
      length := by
        simp only [addFlowMod, OFP_ACTION_OUTPUT_SIZE]
        omega }

/-- A delete can be sent if its match is well formed. -/
theorem sendable_deleteMod {ofMatch : OFPMatch} (hmatch : ofMatch.WellFormed) :
    Sendable (.flowMod (deleteMod ofMatch)) where
  wellFormed := ⟨hmatch, fun _ => rfl⟩
  inRange :=
    { idleTimeout := (by decide : 0 < 2 ^ 16)
      hardTimeout := (by decide : 0 < 2 ^ 16)
      priority := (by decide : OFP_DEFAULT_PRIORITY < 2 ^ 16)
      bufferId := (by decide : OFP_NO_BUFFER < 2 ^ 32)
      outPort := (by decide : OFPP_ANY < 2 ^ 32)
      outGroup := (by decide : OFPG_ANY < 2 ^ 32)
      actions := fun a ha => by cases ha
      length := (by decide : 192 + 0 * OFP_ACTION_OUTPUT_SIZE < 2 ^ 16) }

/-- An output to a port in range is in range. -/
theorem inRange_output {port : ℕ} (h : port < 2 ^ 32) :
    ∀ a ∈ [({ port } : OFPActionOutput)], a.InRange := by
  intro a ha
  rw [List.mem_singleton.mp ha]
  exact ⟨h, (by decide : OFPCML_MAX < 2 ^ 16)⟩

/-- So is the output to the controller. -/
theorem inRange_toController : ∀ a ∈ [toController], a.InRange := by
  intro a ha
  rw [List.mem_singleton.mp ha]
  exact ⟨by decide, by decide⟩

/-- The packet-out for a received packet-in can be sent. -/
theorem sendable_packetOutMsg {msg : PacketIn} {buf : Bytes} (h : msg.Received buf) {outPort : ℕ}
    (hport : outPort < 2 ^ 32) : Sendable (packetOutMsg msg outPort) := by
  obtain ⟨hbuffer, hlen⟩ := h.bounds
  refine ⟨⟨?_, fun h => by cases h⟩, ⟨hbuffer, msg.inPort.no_lt, inRange_output hport, ?_⟩⟩
  · by_cases hno : msg.bufferId = OFP_NO_BUFFER <;> simp [hno]
  · have hdata : ((if msg.bufferId = OFP_NO_BUFFER then some msg.data else none).getD []).length ≤
        msg.data.length := by
      split
      · exact le_rfl
      · exact Nat.zero_le _
    simp only [OFP_PACKET_OUT_SIZE, OFP_ACTION_OUTPUT_SIZE, List.length_singleton]
    omega

/-- The catch-all can be sent. -/
theorem sendable_catchAll : Sendable (.flowMod catchAllMod) :=
  sendable_addFlowMod wellFormed_ipv4Match (by decide) (by decide) (by decide) inRange_toController
    le_rfl fun no h => by cases h

/-- What the filtering area tells a switch can be told from its bytes. -/
theorem Filtered.sendable {datapath : Datapath} {now : ℚ} {data : Bytes} {ethPkt : Ethernet}
    {c : FirewallApp} {r : FwOutcome (Option CheckResult)}
    (h : Filtered datapath now data ethPkt c r) {d : ℕ} {m : OFPMsg}
    (hm : Effect.sendMsg d m ∈ r.out) : Sendable m := by
  cases h with
  | ignored | noHeader | noL4 | datagram | segment | other => simp at hm
  | source ip _ hip hsrc =>
      simp only at hm
      split at hm
      swap
      · cases hm
      obtain ⟨-, rfl⟩ := Effect.sendMsg.inj (List.mem_singleton.mp hm)
      -- the source was read from the frame, so it is an address
      obtain ⟨-, ⟨a, ha⟩, -⟩ := (Packet.ranged_parse data).ipv4 ip hip
      rw [ha]
      exact sendable_addFlowMod (wellFormed_ipv4SrcMatch a) (by decide) (by decide) (by decide)
        (fun a ha => by cases ha) (Nat.zero_le _) (fun no h => by cases h)
  | inspected ip tcp _ _ _ _ _ _ r hr =>
      obtain ⟨state, out, hrun, -, hout⟩ := checkDpi_spec
        ⟨ip, tcp, extractTcpPayload data ip tcp⟩ (c.clocked now ip.src)
      rw [← hr, hrun] at hm
      exact absurd (hout _ hm) (by simp [Effect.IsBroadcast])
  | arp arpPkt heth harp r hr =>
      rw [← hr, run_checkArpSpoof] at hm
      cases hget : c.arpTable.get? arpPkt.srcIp with
      | none => simp [hget] at hm
      | some mac =>
          by_cases hmac : mac = arpPkt.srcMac
          · simp [hget, hmac] at hm
          · simp only [hget, if_neg hmac] at hm
            obtain ⟨-, rfl⟩ := Effect.sendMsg.inj (List.mem_singleton.mp hm)
            obtain ⟨a, ha⟩ := (Packet.ranged_parse data).arp arpPkt harp
            rw [ha]
            exact sendable_addFlowMod (wellFormed_arpSpaMatch a) (by decide) (by decide)
              (by decide) (fun a ha => by cases ha) (Nat.zero_le _) (fun no h => by cases h)

/-- The ports of a parsed transport header. -/
theorem ports_of_l4Of {data : Bytes} {ipPkt : IPv4} {l4Pkt : L4}
    (h : l4Of (Packet.parse data) ipPkt = some l4Pkt) :
    l4Pkt.srcPort < 2 ^ 16 ∧ l4Pkt.dstPort < 2 ^ 16 := by
  unfold l4Of at h
  split at h
  · obtain ⟨tcpPkt, htcp, rfl⟩ := Option.map_eq_some_iff.mp h
    exact (Packet.ranged_parse data).tcp tcpPkt htcp
  · split at h
    · obtain ⟨udpPkt, hudp, rfl⟩ := Option.map_eq_some_iff.mp h
      exact (Packet.ranged_parse data).udp udpPkt hudp
    · cases h

/-- What forwards a frame can be told from its bytes. -/
theorem sendable_of_mem_forwardMsgs {c : FirewallApp} {msg : PacketIn} {buf : Bytes}
    {ethPkt : Ethernet} {outPort : ℕ} {m : OFPMsg}
    (hm : m ∈ c.forwardMsgs msg (Packet.parse msg.data) ethPkt outPort) (h : msg.Received buf)
    (heth : msg.ethernet? = some ethPkt) (hport : outPort < 2 ^ 32) : Sendable m := by
  rcases mem_forwardMsgs hm with ⟨-, rfl⟩ | rfl | ⟨ipPkt, l4Pkt, htarget, -, mod, hmod, rfl⟩
  -- the learned entry has the numbers and addresses of the frame it comes from
  · unfold PacketIn.ethernet? at heth
    split at heth
    · cases heth
    obtain ⟨⟨dst, hdst⟩, src, hsrc⟩ := (Packet.ranged_parse msg.data).ethernet ethPkt heth
    refine sendable_addFlowMod (wellFormed_learnedMatch msg.inPort.no_lt hdst hsrc) (by decide)
      (by decide) (by decide) (inRange_output hport) le_rfl fun no hno => ?_
    split at hno
    · obtain rfl := Option.some.inj hno
      exact h.bounds.1
    · cases hno
  · exact sendable_packetOutMsg h hport
  -- the trust entries have the addresses and ports of the packet, once as they are and once swapped
  · obtain ⟨-, -, hip, hl4⟩ := trustTarget?_eq_some.mp htarget
    obtain ⟨hproto, ⟨src, hsrc⟩, dst, hdst⟩ := (Packet.ranged_parse msg.data).ipv4 ipPkt hip
    obtain ⟨hsrcPort, hdstPort⟩ := ports_of_l4Of hl4
    simp only [trustMods, hsrc, hdst, List.mem_cons, List.not_mem_nil, or_false] at hmod
    rcases hmod with rfl | rfl
    · exact sendable_addFlowMod (wellFormed_trustMatch hproto src dst hsrcPort hdstPort)
        (by decide) (by decide) (by decide) (inRange_output hport) le_rfl fun no h => by cases h
    · exact sendable_addFlowMod (wellFormed_trustMatch hproto dst src hdstPort hsrcPort)
        (by decide) (by decide) (by decide) (inRange_output msg.inPort.no_lt) le_rfl
        fun no h => by cases h

/-- What a request has the switches told can be told from its bytes. -/
theorem sendable_of_served {compile : ReCompile} {c c' : FirewallApp} {req : Request}
    {val : Except Exc Response} {msgs : List OFPMsg} (h : Served compile c req val c' msgs)
    {m : OFPMsg} (hm : m ∈ msgs) : Sendable m := by
  cases h with
  | refused | ipUnblocked | portUnblocked | rateLimit | patternRemoved => cases hm
  | ipBlocked ip _ hok =>
      obtain ⟨a, ha⟩ := Option.isSome_iff_exists.mp ((IPv4Address.isSome_ofText? ip).trans hok)
      obtain rfl := IPv4Address.ofText?_eq_some.mp ha
      simp only [List.mem_cons, List.not_mem_nil, or_false] at hm
      rcases hm with rfl | rfl
      · exact sendable_deleteMod (wellFormed_ipv4SrcMatch a)
      · exact sendable_deleteMod (wellFormed_ipv4DstMatch a)
  | portBlocked port proto rule mt _ hrule hmt =>
      rw [List.mem_singleton.mp hm]
      have hport := (portRule_bounds hrule).1
      exact sendable_deleteMod (wellFormed_dstPortMatch? hmt (by omega))
  | patternAdded =>
      simp only [List.mem_cons, List.not_mem_nil, or_false] at hm
      rcases hm with rfl | rfl
      · exact sendable_deleteMod wellFormed_ipv4Match
      · exact sendable_catchAll

/-! ## Runs -/

/-- The packet-in was received from a switch. -/
def Event.Received : Event → Prop
  | .packetIn _ _ msg => ∃ buf, msg.Received buf
  | _ => True

/-- Whatever an event makes the controller send can be told from its bytes. -/
theorem sendable_of_acted {compile : ReCompile} {c c' : FirewallApp} (hc : c.Routed) {ev : Event}
    {ms : ℕ → List OFPMsg} (h : Acted compile c ev c' ms) (hev : ev.Received) {d : ℕ} {m : OFPMsg}
    (hm : m ∈ ms d) : Sendable m := by
  cases h with
  | handshake d' =>
      simp only at hm
      split at hm
      swap
      · cases hm
      simp only [List.mem_cons, List.not_mem_nil, or_false] at hm
      rcases hm with rfl | rfl
      · exact sendable_addFlowMod wellFormed_any (by decide) (by decide) (by decide)
          inRange_toController le_rfl fun no h => by cases h
      · exact sendable_catchAll
  | unheard | ignored | expired => cases hm
  | rejected d' now msg result ethPkt =>
      exact (filtered_filterOf c ⟨d'⟩ now msg ethPkt).sendable (mem_sentTo.mp hm)
  | allowed d' now msg ethPkt hd hv heth =>
      simp only at hm
      split at hm
      swap
      · cases hm
      obtain ⟨buf, hbuf⟩ := hev
      refine sendable_of_mem_forwardMsgs hm hbuf heth ?_
      -- the frame is flooded, or goes to a port that was learned from a packet-in
      by_cases hflood : c.routeOf d' msg ethPkt = OFPP_FLOOD
      · rw [hflood]
        decide
      · obtain ⟨p, hp⟩ := (hc.learnMac d' ethPkt.src msg.inPort).exists_outPortOf hflood
        rw [FirewallApp.routeOf, ← hp]
        exact p.no_lt
  | served req val c' msgs hval h =>
      simp only at hm
      split at hm
      · exact sendable_of_served h hm
      · cases hm

def MAX_XID : ℕ := 0xffffffff

/-- `set_xid`. -/
def nextXid (xid : ℕ) : ℕ := (xid + 1) &&& MAX_XID

/-- A transaction id has thirty-two bits. -/
theorem nextXid_lt (xid : ℕ) : nextXid xid < 2 ^ 32 := by
  rw [nextXid, show MAX_XID = 2 ^ 32 - 1 from rfl, Nat.and_two_pow_sub_one_eq_mod]
  exact Nat.mod_lt _ (by decide)

/-- `send_msg`, for messages one after the other: their bytes. -/
def sendMsgs (xid : ℕ) : List OFPMsg → Option (List Bytes)
  | [] => some []
  | m :: ms =>
    (m.serialize (nextXid xid)).bind fun buf => (sendMsgs (nextXid xid) ms).map (buf :: ·)

/-- What a switch makes of a message. -/
def understood? (buf : Bytes) : Option OFPMsg := (OFPMsg.read? buf).map Prod.snd

/-- Messages that can be sent are, and each is one frame that is understood as it was meant. -/
theorem exists_sendMsgs {ms : List OFPMsg} (h : ∀ m ∈ ms, Sendable m) (xid : ℕ) :
    ∃ bufs, sendMsgs xid ms = some bufs ∧ (∀ buf ∈ bufs, openFlowFormat.IsFrame buf) ∧
      bufs.map understood? = ms.map some := by
  induction ms generalizing xid with
  | nil => exact ⟨[], rfl, by simp, rfl⟩
  | cons m ms ih =>
      have hm := h m List.mem_cons_self
      obtain ⟨buf, hbuf⟩ := OFPMsg.exists_serialize hm.wellFormed hm.inRange (nextXid_lt xid)
      obtain ⟨bufs, hbufs, hframes, hread⟩ :=
        ih (fun m' hm' => h m' (List.mem_cons_of_mem _ hm')) (nextXid xid)
      refine ⟨buf :: bufs, ?_, ?_, ?_⟩
      · rw [sendMsgs, hbuf, Option.bind_some, hbufs, Option.map_some]
      · exact List.forall_mem_cons.mpr ⟨OFPMsg.isFrame_of_serialize hbuf, hframes⟩
      · rw [List.map_cons, List.map_cons, hread, understood?,
          OFPMsg.read?_of_serialize hbuf hm.wellFormed, Option.map_some]

namespace World

/-- The messages that a switch is sent, in order. -/
def outbox (compile : ReCompile) (dpi : DPIEngine) (evs : List Event) (d : ℕ) : List OFPMsg :=
  outputs (step compile) (fun w ev => w.sends compile ev d) (init dpi) evs

/-- Whatever a switch is sent in a run can be sent. -/
theorem sendable_of_mem_outbox (compile : ReCompile) (dpi : DPIEngine) {evs : List Event}
    (hevs : ∀ ev ∈ evs, ev.Received) (d : ℕ) : ∀ m ∈ outbox compile dpi evs d, Sendable m := by
  refine forall_mem_outputs LearnSound (fun _ ev hw _ => learnSound_step hw ev) ?_
    (along_of_forall_mem _ hevs _) (learnSound_init dpi)
  intro w ev hw hev m hm
  obtain ⟨c', ms, hact, -, hsent, -⟩ := step_spec compile hw.sound.keyed ev
  rw [hsent] at hm
  exact sendable_of_acted hw.routed hact hev hm

/-- Of what a switch is sent in a run it reads, however the bytes are cut up on their way, every
message as it was meant, in order, and nothing else. -/
theorem outbox_run (compile : ReCompile) (dpi : DPIEngine) {evs : List Event}
    (hevs : ∀ ev ∈ evs, ev.Received) (d xid : ℕ) :
    ∃ bufs, sendMsgs xid (outbox compile dpi evs d) = some bufs ∧
      ∀ pieces : List Bytes, pieces.flatten = bufs.flatten →
        (outputs RecvLoop.turn RecvLoop.messages {} pieces).map understood? =
          (outbox compile dpi evs d).map some := by
  obtain ⟨bufs, hbufs, hframes, hread⟩ :=
    exists_sendMsgs (sendable_of_mem_outbox compile dpi hevs d) xid
  refine ⟨bufs, hbufs, fun pieces hpieces => ?_⟩
  have hrun := RecvLoop.reads_run RecvLoop.waiting_init.incomplete pieces
  rw [show (({} : RecvLoop).buf ++ pieces.flatten) = pieces.flatten from rfl, hpieces] at hrun
  rw [(hrun.unique (FrameFormat.Reads.of_frames hframes)).1, hread]

/-- The message of the long segment is one a switch sends. -/
theorem received_longSegment :
    (packetInPart longSegment longSegment).Received (packetInBytes longSegment longSegment) where
  isFrame := ⟨by decide +kernel, by decide +kernel⟩
  eq_some := by decide +kernel
  matchLength := by decide +kernel

/-- A TCP segment of a switch, and what the switch is sent on account of it. -/
theorem outbox_run_longSegment :
    ∃ bufs, sendMsgs 0 (outbox builtinCompile builtinEngine
        [.handshake 1, .packetIn 1 0 (packetInPart longSegment longSegment)] 1) = some bufs ∧
      ∀ pieces : List Bytes, pieces.flatten = bufs.flatten →
        (outputs RecvLoop.turn RecvLoop.messages {} pieces).map understood? =
          (outbox builtinCompile builtinEngine
            [.handshake 1, .packetIn 1 0 (packetInPart longSegment longSegment)] 1).map some := by
  refine outbox_run builtinCompile builtinEngine ?_ 1 0
  rintro ev hev
  simp only [List.mem_cons, List.not_mem_nil, or_false] at hev
  rcases hev with rfl | rfl
  · exact trivial
  · exact ⟨_, received_longSegment⟩

end World

end SdnFirewall
