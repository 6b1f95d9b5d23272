import SdnFirewall.System.Records

/-!
# Reachable flow tables

Every entry a switch can hold is one of six kinds, and every connected switch holds the two entries
of its handshake. From this follows which entries can decide which frames.
-/

namespace SdnFirewall

open Common OpenFlow Python

/-! ## The six kinds of entries -/

@[simps] def missEntry : FlowEntry :=
  { priority := 0, ofMatch := {}, actions := [toController] }

@[simps] def catchAllEntry : FlowEntry :=
  { priority := 300, ofMatch := ipv4Match, actions := [toController] }

@[simps] def rateDropEntry (ip : String) : FlowEntry :=
  { priority := 200, ofMatch := ipv4SrcMatch ip, actions := [], idleTimeout := 10 }

@[simps] def arpDropEntry (ip : String) : FlowEntry :=
  { priority := 200, ofMatch := arpSpaMatch ip, actions := [], idleTimeout := 10 }

/-- A learned entry; it has no timeout. -/
@[simps] def learnedEntry (inPort : ℕ) (ethPkt : Ethernet) (outPort : ℕ) : FlowEntry :=
  { priority := 1, ofMatch := learnedMatch inPort ethPkt, actions := [{ port := outPort }] }

/-- One direction of a trusted flow, in a switch. -/
@[simps] def trustFlowEntry (proto : ℕ) (src dst : Endpoint) (port : ℕ) : FlowEntry :=
  { priority := 400, ofMatch := trustMatch proto src dst, actions := [{ port }]
    idleTimeout := 60, hardTimeout := 300 }

inductive Known : FlowEntry → Prop
  | miss : Known missEntry
  | catchAll : Known catchAllEntry
  | rateDrop (ip : String) : Known (rateDropEntry ip)
  | arpDrop (ip : String) : Known (arpDropEntry ip)
  | learned (inPort : ℕ) (ethPkt : Ethernet) (outPort : ℕ) :
      Known (learnedEntry inPort ethPkt outPort)
  | trust (proto : ℕ) (src dst : Endpoint) (port : ℕ) (hproto : proto = 6 ∨ proto = 17) :
      Known (trustFlowEntry proto src dst port)

/-- The trust entries are the ones of priority 400. -/
theorem Known.trust_of_priority {e : FlowEntry} (h : Known e) (hp : e.priority = 400) :
    ∃ proto src dst port, (proto = 6 ∨ proto = 17) ∧ e = trustFlowEntry proto src dst port := by
  cases h with
  | trust proto src dst port hproto => exact ⟨proto, src, dst, port, hproto, rfl⟩
  | miss | catchAll | rateDrop | arpDrop | learned => simp at hp

/-- The learned entries are the ones of priority 1. -/
theorem Known.learned_of_priority {e : FlowEntry} (h : Known e) (hp : e.priority = 1) :
    ∃ inPort ethPkt outPort, e = learnedEntry inPort ethPkt outPort := by
  cases h with
  | learned inPort ethPkt outPort => exact ⟨inPort, ethPkt, outPort, rfl⟩
  | miss | catchAll | rateDrop | arpDrop | trust => simp at hp

/-! ## Where entries come from -/

/-- The packet-in completes the trust of its flow, so that the pair of entries is sent. -/
def FirewallApp.Grants (c : FirewallApp) (d : ℕ) (now : ℚ) (msg : PacketIn) (ipPkt : IPv4)
    (l4Pkt : L4) : Prop :=
  d ∈ c.datapaths.keys ∧ c.verdict? ⟨d⟩ now msg = some .allowed ∧
    ∃ ethPkt, msg.ethernet? = some ethPkt ∧
      trustTarget? (Packet.parse msg.data) ethPkt (c.routeOf d msg ethPkt) = some (ipPkt, l4Pkt) ∧
      (c.entryOf (flowKeyOf ipPkt l4Pkt)).Completes

/-- The packet-in makes the controller install a learned entry. -/
def FirewallApp.LearnsRoute (c : FirewallApp) (d : ℕ) (now : ℚ) (msg : PacketIn)
    (ethPkt : Ethernet) : Prop :=
  d ∈ c.datapaths.keys ∧ c.verdict? ⟨d⟩ now msg = some .allowed ∧
    msg.ethernet? = some ethPkt ∧ Learns ethPkt (c.routeOf d msg ethPkt)

/-- The messages that forward a frame: a learned entry, the frame itself, or the pair of entries of
a flow it completes the trust of. -/
theorem mem_forwardMsgs {c : FirewallApp} {msg : PacketIn} {pkt : Packet} {ethPkt : Ethernet}
    {outPort : ℕ} {m : OFPMsg} (hm : m ∈ c.forwardMsgs msg pkt ethPkt outPort) :
    (Learns ethPkt outPort ∧ m = .flowMod (learnedMod msg ethPkt outPort)) ∨
      m = packetOutMsg msg outPort ∨
      ∃ ipPkt l4Pkt, trustTarget? pkt ethPkt outPort = some (ipPkt, l4Pkt) ∧
        (c.entryOf (flowKeyOf ipPkt l4Pkt)).Completes ∧
        ∃ mod ∈ trustMods ipPkt l4Pkt msg.inPort.no outPort, m = .flowMod mod := by
  unfold FirewallApp.forwardMsgs at hm
  -- a learned entry excludes trust: it is for frames that are not IPv4
  by_cases hl : Learns ethPkt outPort
  · rw [if_pos hl] at hm
    rcases List.mem_cons.mp hm with rfl | hm
    · exact Or.inl ⟨hl, rfl⟩
    · split at hm
      · exact absurd hm List.not_mem_nil
      · exact Or.inr (Or.inl (List.mem_singleton.mp hm))
  · rw [if_neg hl] at hm
    rcases List.mem_cons.mp hm with rfl | hm
    · exact Or.inr (Or.inl rfl)
    · obtain ⟨mod, hmod, rfl⟩ := List.mem_map.mp hm
      cases htarget : trustTarget? pkt ethPkt outPort with
      | none => rw [htarget] at hmod; exact absurd hmod List.not_mem_nil
      | some target =>
          obtain ⟨ipPkt, l4Pkt⟩ := target
          simp only [htarget, FirewallApp.grants] at hmod
          split at hmod
          · exact Or.inr (Or.inr ⟨ipPkt, l4Pkt, rfl, ‹_›, mod, hmod, rfl⟩)
          · exact absurd hmod List.not_mem_nil

/-- What an event can make the controller install on a switch. -/
inductive Installs (c : FirewallApp) (d : ℕ) : Event → FlowEntry → Prop
  | miss : Installs c d (.handshake d) missEntry
  | catchAll : Installs c d (.handshake d) catchAllEntry
  | refill (body : Except Exc Json) (hd : d ∈ c.datapaths.keys) :
      Installs c d (.rest (.addDpiPattern body)) catchAllEntry
  | rateDrop (now : ℚ) (msg : PacketIn) (ip : String) (hd : d ∈ c.datapaths.keys)
      (hv : c.verdict? ⟨d⟩ now msg = some .rateLimited) :
      Installs c d (.packetIn d now msg) (rateDropEntry ip)
  | arpDrop (now : ℚ) (msg : PacketIn) (ip : String) (hd : d ∈ c.datapaths.keys)
      (hv : c.verdict? ⟨d⟩ now msg = some .arpSpoof) :
      Installs c d (.packetIn d now msg) (arpDropEntry ip)
  | learned (now : ℚ) (msg : PacketIn) (ethPkt : Ethernet) (h : c.LearnsRoute d now msg ethPkt) :
      Installs c d (.packetIn d now msg)
        (learnedEntry msg.inPort.no ethPkt (c.routeOf d msg ethPkt))
  | forward (now : ℚ) (msg : PacketIn) (ipPkt : IPv4) (l4Pkt : L4) (outPort : ℕ)
      (h : c.Grants d now msg ipPkt l4Pkt) :
      Installs c d (.packetIn d now msg)
        (trustFlowEntry ipPkt.proto (ipPkt.src, l4Pkt.srcPort) (ipPkt.dst, l4Pkt.dstPort) outPort)
  | reverse (now : ℚ) (msg : PacketIn) (ipPkt : IPv4) (l4Pkt : L4)
      (h : c.Grants d now msg ipPkt l4Pkt) :
      Installs c d (.packetIn d now msg)
        (trustFlowEntry ipPkt.proto (ipPkt.dst, l4Pkt.dstPort) (ipPkt.src, l4Pkt.srcPort)
          msg.inPort.no)

/-- Trust is granted to TCP and UDP flows only. -/
theorem FirewallApp.Grants.proto {c : FirewallApp} {d : ℕ} {now : ℚ} {msg : PacketIn}
    {ipPkt : IPv4} {l4Pkt : L4} (h : c.Grants d now msg ipPkt l4Pkt) :
    ipPkt.proto = 6 ∨ ipPkt.proto = 17 := by
  obtain ⟨-, -, ethPkt, -, htarget, -⟩ := h
  obtain ⟨-, -, -, hl4⟩ := trustTarget?_eq_some.mp htarget
  exact proto_of_l4Of hl4

/-- What an event installs is one of the known entries. -/
theorem Installs.known {c : FirewallApp} {d : ℕ} {ev : Event} {e : FlowEntry}
    (h : Installs c d ev e) : Known e := by
  cases h with
  | miss => exact .miss
  | catchAll | refill => exact .catchAll
  | rateDrop _ _ ip => exact .rateDrop ip
  | arpDrop _ _ ip => exact .arpDrop ip
  | learned => exact .learned ..
  | forward _ _ _ _ _ h | reverse _ _ _ _ h => exact .trust _ _ _ _ h.proto

/-- What an event can make the controller delete on a switch. -/
inductive Deletes (compile : ReCompile) (c : FirewallApp) : Event → OFPMatch → Prop
  | src (ip : String) (hok : ipv4AddressOk ip = true) :
      Deletes compile c (.rest (.addBlockedIp ip)) (ipv4SrcMatch ip)
  | dst (ip : String) (hok : ipv4AddressOk ip = true) :
      Deletes compile c (.rest (.addBlockedIp ip)) (ipv4DstMatch ip)
  | port (port proto : String) (rule : ℕ × ℕ) (m : OFPMatch)
      (hrule : portRule port proto = .ok rule) (hm : dstPortMatch? rule.1 rule.2 = some m) :
      Deletes compile c (.rest (.addBlockedPort port proto)) m
  | all (body : Except Exc Json) (hok : (Request.addDpiPattern body).Accepted compile c) :
      Deletes compile c (.rest (.addDpiPattern body)) ipv4Match

/-- The messages an event can make the controller send to a switch. -/
inductive Sent (compile : ReCompile) (c : FirewallApp) (d : ℕ) : Event → OFPMsg → Prop
  | miss : Sent compile c d (.handshake d) (.flowMod missMod)
  | catchAll : Sent compile c d (.handshake d) (.flowMod catchAllMod)
  | rateDrop (now : ℚ) (msg : PacketIn) (ip : String) (hd : d ∈ c.datapaths.keys)
      (hv : c.verdict? ⟨d⟩ now msg = some .rateLimited) :
      Sent compile c d (.packetIn d now msg) (.flowMod (rateDropMod ip))
  | arpDrop (now : ℚ) (msg : PacketIn) (ip : String) (hd : d ∈ c.datapaths.keys)
      (hv : c.verdict? ⟨d⟩ now msg = some .arpSpoof) :
      Sent compile c d (.packetIn d now msg) (.flowMod (arpDropMod ip))
  | learned (now : ℚ) (msg : PacketIn) (ethPkt : Ethernet) (h : c.LearnsRoute d now msg ethPkt) :
      Sent compile c d (.packetIn d now msg)
        (.flowMod (learnedMod msg ethPkt (c.routeOf d msg ethPkt)))
  | frame (now : ℚ) (msg : PacketIn) (outPort : ℕ) (hd : d ∈ c.datapaths.keys)
      (hv : c.verdict? ⟨d⟩ now msg = some .allowed) :
      Sent compile c d (.packetIn d now msg) (packetOutMsg msg outPort)
  | pair (now : ℚ) (msg : PacketIn) (ipPkt : IPv4) (l4Pkt : L4) (outPort : ℕ) (mod : OFPFlowMod)
      (h : c.Grants d now msg ipPkt l4Pkt)
      (hmod : mod ∈ trustMods ipPkt l4Pkt msg.inPort.no outPort) :
      Sent compile c d (.packetIn d now msg) (.flowMod mod)
  | delete (ev : Event) (mt : OFPMatch) (h : Deletes compile c ev mt) :
      Sent compile c d ev (.flowMod (deleteMod mt))
  | refill (body : Except Exc Json) (hd : d ∈ c.datapaths.keys) :
      Sent compile c d (.rest (.addDpiPattern body)) (.flowMod catchAllMod)

/-- What a request has the connected switches told. -/
theorem sent_of_served {compile : ReCompile} {c c' : FirewallApp} {req : Request}
    {val : Except Exc Response} {msgs : List OFPMsg} (hval : ((serve compile req).run c).val = val)
    (h : Served compile c req val c' msgs) {d : ℕ} (hd : d ∈ c.datapaths.keys) {m : OFPMsg}
    (hm : m ∈ msgs) : Sent compile c d (.rest req) m := by
  cases h with
  | refused | ipUnblocked | portUnblocked | rateLimit | patternRemoved =>
      exact absurd hm List.not_mem_nil
  | ipBlocked ip _ hok =>
      simp only [List.mem_cons, List.not_mem_nil, or_false] at hm
      rcases hm with rfl | rfl
      · exact .delete _ _ (.src ip hok)
      · exact .delete _ _ (.dst ip hok)
  | portBlocked port proto rule mt _ hrule hmt =>
      rw [List.mem_singleton.mp hm]
      exact .delete _ _ (.port port proto rule mt hrule hmt)
  | patternAdded body =>
      simp only [List.mem_cons, List.not_mem_nil, or_false] at hm
      rcases hm with rfl | rfl
      · exact .delete _ _ (.all _ ⟨_, hval, rfl⟩)
      · exact .refill _ hd

/-- The controller sends nothing else. -/
theorem sent_of_acted {compile : ReCompile} {c c' : FirewallApp} {ev : Event}
    {ms : ℕ → List OFPMsg} (h : Acted compile c ev c' ms) {d : ℕ} {m : OFPMsg}
    (hm : m ∈ ms d) : Sent compile c d ev m := by
  cases h with
  | handshake d' =>
      simp only at hm
      split at hm
      · rename_i hd
        subst hd
        simp only [List.mem_cons, List.not_mem_nil, or_false] at hm
        rcases hm with rfl | rfl
        · exact .miss
        · exact .catchAll
      · exact absurd hm List.not_mem_nil
  | unheard | ignored | expired => exact absurd hm List.not_mem_nil
  | rejected d' now msg result ethPkt hd hv hrej heth =>
      -- the filtering area speaks to the switch in two cases, and each has its own verdict
      have hval := (verdict?_iff heth).mp hv
      have hf := filtered_filterOf c ⟨d'⟩ now msg ethPkt
      obtain ⟨hdd, ⟨⟨ip, rfl⟩, hrate⟩ | ⟨⟨ip, rfl⟩, hspoof⟩⟩ := hf.sendMsg_mem (mem_sentTo.mp hm)
      · obtain rfl : d = d' := hdd
        obtain rfl : result = .rateLimited := by simpa [hval] using hrate
        exact .rateDrop now msg ip hd hv
      · obtain rfl : d = d' := hdd
        obtain rfl : result = .arpSpoof := by simpa [hval] using hspoof
        exact .arpDrop now msg ip hd hv
  | allowed d' now msg ethPkt hd hv heth =>
      simp only at hm
      split at hm
      swap
      · exact absurd hm List.not_mem_nil
      rename_i hdd
      subst hdd
      rcases mem_forwardMsgs hm with ⟨hl, rfl⟩ | rfl | ⟨ip, l4, htarget, hc, mod, hmod, rfl⟩
      · exact .learned now msg ethPkt ⟨hd, hv, heth, hl⟩
      · exact .frame now msg _ hd hv
      · rw [completes_afterLearning] at hc
        exact .pair now msg ip l4 _ mod ⟨hd, hv, ethPkt, heth, htarget, hc⟩ hmod
  | served req val c' msgs hval h =>
      simp only at hm
      split at hm
      swap
      · exact absurd hm List.not_mem_nil
      rename_i hd
      exact sent_of_served hval h hd hm

/-- Every entry a message installs is one of the listed ones. -/
theorem installs_of_acted {compile : ReCompile} {c c' : FirewallApp} {ev : Event}
    {ms : ℕ → List OFPMsg} (h : Acted compile c ev c' ms) {d : ℕ} {m : OFPMsg} {e : FlowEntry}
    (hm : m ∈ ms d) (he : m.installs? = some e) : Installs c d ev e := by
  cases sent_of_acted h hm with
  | miss => cases he; exact .miss
  | catchAll => cases he; exact .catchAll
  | rateDrop now msg ip hd hv => cases he; exact .rateDrop now msg ip hd hv
  | arpDrop now msg ip hd hv => cases he; exact .arpDrop now msg ip hd hv
  | learned now msg ethPkt hlearn => cases he; exact .learned now msg ethPkt hlearn
  | frame | delete => exact absurd he (by simp [OFPMsg.installs?, packetOutMsg, deleteMod])
  | pair now msg ipPkt l4Pkt outPort mod hg hmod =>
      simp only [trustMods, List.mem_cons, List.not_mem_nil, or_false] at hmod
      rcases hmod with rfl | rfl
      · cases he; exact .forward now msg ipPkt l4Pkt outPort hg
      · cases he; exact .reverse now msg ipPkt l4Pkt hg
  | refill body hd => cases he; exact .refill body hd

/-- A message that installs nothing sends a frame out or is one of the listed deletes. -/
theorem deletes_of_acted {compile : ReCompile} {c c' : FirewallApp} {ev : Event}
    {ms : ℕ → List OFPMsg} (h : Acted compile c ev c' ms) {d : ℕ} {m : OFPMsg}
    (hm : m ∈ ms d) (hnone : m.installs? = none) :
    (∃ out, m = .packetOut out) ∨
      ∃ mt, m = .flowMod (deleteMod mt) ∧ Deletes compile c ev mt := by
  cases sent_of_acted h hm with
  | frame => exact Or.inl ⟨_, rfl⟩
  | delete _ mt hdel => exact Or.inr ⟨mt, rfl, hdel⟩
  | miss | catchAll | rateDrop | arpDrop | learned | refill =>
      exact absurd hnone (Option.some_ne_none _)
  | pair now msg ipPkt l4Pkt outPort mod hg hmod =>
      simp only [trustMods, List.mem_cons, List.not_mem_nil, or_false] at hmod
      rcases hmod with rfl | rfl <;> exact absurd hnone (Option.some_ne_none _)

/-- The deletes are about IPv4 frames. -/
theorem Deletes.ethType {compile : ReCompile} {c : FirewallApp} {ev : Event} {mt : OFPMatch}
    (h : Deletes compile c ev mt) : mt.ethType = some ETH_TYPE_IP := by
  cases h with
  | src | dst | all => rfl
  | port port proto rule m hrule hm =>
      rcases dstPortMatch?_eq_some hm with ⟨-, rfl⟩ | ⟨-, rfl⟩ <;> rfl

/-- A packet-in grants trust to a flow when it counts for the flow and completes its record. -/
theorem exists_grants_iff {c : FirewallApp} {ev : Event} {k : TrustKey} :
    (∃ d now msg ipPkt l4Pkt, ev = .packetIn d now msg ∧ c.Grants d now msg ipPkt l4Pkt ∧
      flowKeyOf ipPkt l4Pkt = k) ↔ c.Counts ev k ∧ (c.entryOf k).Completes := by
  constructor
  · rintro ⟨d, now, msg, ipPkt, l4Pkt, rfl, ⟨hd, hv, ethPkt, heth, htarget, hc⟩, rfl⟩
    exact ⟨counts_packetIn.mpr
      ⟨verdictOf?_eq_some.mpr ⟨hd, hv⟩, ethPkt, ipPkt, l4Pkt, heth, htarget, rfl⟩, hc⟩
  · rintro ⟨hcounts, hc⟩
    cases ev with
    | handshake | rest | expire =>
        exact absurd hcounts (by simp [FirewallApp.Counts, FirewallApp.counted?])
    | packetIn d now msg =>
        obtain ⟨hv, ethPkt, ipPkt, l4Pkt, heth, htarget, rfl⟩ := counts_packetIn.mp hcounts
        obtain ⟨hd, hv⟩ := verdictOf?_eq_some.mp hv
        exact ⟨d, now, msg, ipPkt, l4Pkt, rfl, ⟨hd, hv, ethPkt, heth, htarget, hc⟩, rfl⟩

/-- What a packet-in that grants trust makes the controller send: the frame itself and the pair of
entries, to the switch it came from. -/
theorem sends_of_grants {compile : ReCompile} {c c' : FirewallApp} {d : ℕ} {now : ℚ}
    {msg : PacketIn} {ms : ℕ → List OFPMsg} (h : Acted compile c (.packetIn d now msg) c' ms)
    {ipPkt : IPv4} {l4Pkt : L4} (hg : c.Grants d now msg ipPkt l4Pkt) :
    ∃ outPort, ∀ d', ms d' = if d' = d then packetOutMsg msg outPort ::
      (trustMods ipPkt l4Pkt msg.inPort.no outPort).map .flowMod else [] := by
  obtain ⟨hd, hv, ethPkt, heth, htarget, hc⟩ := hg
  obtain ⟨-, hms⟩ := h.of_allowed hd hv heth
  have hnot : ¬ Learns ethPkt (c.routeOf d msg ethPkt) := by
    intro hl
    rw [trustTarget?_of_learns hl] at htarget
    exact absurd htarget (by simp)
  rw [← completes_afterLearning c ⟨d⟩ now msg ethPkt] at hc
  refine ⟨c.routeOf d msg ethPkt, fun d' => ?_⟩
  rw [hms]
  simp only [FirewallApp.forwardMsgs, if_neg hnot, htarget, FirewallApp.grants, if_pos hc]

/-- Only the forwarding of an allowed frame sends one out. -/
theorem allowed_of_outputs {compile : ReCompile} {c c' : FirewallApp} {ev : Event}
    {ms : ℕ → List OFPMsg} (h : Acted compile c ev c' ms) {d : ℕ} {m : OFPMsg} (hm : m ∈ ms d)
    (hout : m.Outputs) : c.verdictOf? ev = some .allowed := by
  cases sent_of_acted h hm with
  | learned now msg ethPkt hlearn => exact verdictOf?_eq_some.mpr ⟨hlearn.1, hlearn.2.1⟩
  | frame now msg outPort hd hv => exact verdictOf?_eq_some.mpr ⟨hd, hv⟩
  | pair now msg ipPkt l4Pkt outPort mod hg => exact verdictOf?_eq_some.mpr ⟨hg.1, hg.2.1⟩
  -- an add without a buffer and a delete send no frame out
  | miss | catchAll | rateDrop | arpDrop | refill => exact absurd rfl hout.2.1
  | delete => exact absurd hout.1 (by simp [deleteMod])

/-! ## The invariant of the tables -/

/-- What holds of the tables in every reachable state. -/
structure World.Sound (w : World) : Prop where
  keyed : w.ctl.Keyed
  known : ∀ d, ∀ e ∈ w.tables d, Known e
  miss : ∀ d, w.Connected d → missEntry ∈ w.tables d
  catchAll : ∀ d, w.Connected d → catchAllEntry ∈ w.tables d
  unconnected : ∀ d, ¬ w.Connected d → w.tables d = []

namespace World

/-- A switch that holds an entry is connected. -/
theorem Sound.connected_of_mem {w : World} (hw : w.Sound) {d : ℕ} {e : FlowEntry}
    (he : e ∈ w.tables d) : w.Connected d := by
  by_contra hd
  rw [hw.unconnected d hd] at he
  exact List.not_mem_nil he

/-- At first the tables are empty. -/
theorem sound_init (dpi : DPIEngine) : (init dpi).Sound where
  keyed := keyed_init dpi
  known := fun _ _ he => absurd he List.not_mem_nil
  miss := fun _ hd => absurd hd List.not_mem_nil
  catchAll := fun _ hd => absurd hd List.not_mem_nil
  unconnected := fun _ _ => rfl

/-- What one event does: the controller acts in one of the listed ways, and the switches apply its
messages. -/
theorem step_spec (compile : ReCompile) {w : World} (hk : w.ctl.Keyed) (ev : Event) :
    ∃ c' ms, Acted compile w.ctl ev c' ms ∧ (w.step compile ev).ctl.core = c'.core ∧
      (∀ d, w.sends compile ev d = ms d) ∧
      ∀ d, (w.step compile ev).tables d = (w.expired ev d).applyAll (ms d) := by
  obtain ⟨c', ms, hact, hcore, hsent⟩ := acted_handle compile hk ev
  exact ⟨c', ms, hact, hcore, hsent, fun d => congrArg _ (hsent d)⟩

/-- An event that makes the controller send a frame out is an allowed packet-in. -/
theorem allowed_of_sends {compile : ReCompile} {w : World} (hk : w.ctl.Keyed) {ev : Event} {d : ℕ}
    {m : OFPMsg} (hm : m ∈ w.sends compile ev d) (hout : m.Outputs) :
    w.ctl.verdictOf? ev = some .allowed := by
  obtain ⟨c', ms, hact, -, hsent, -⟩ := step_spec compile hk ev
  rw [hsent] at hm
  exact allowed_of_outputs hact hm hout

/-- An expiry brings nothing in. -/
theorem mem_of_mem_expired {w : World} {ev : Event} {d : ℕ} {e : FlowEntry}
    (h : e ∈ w.expired ev d) : e ∈ w.tables d := by
  unfold expired at h
  split at h
  · split at h
    · exact FlowTable.mem_of_mem_expire h
    · exact h
  · exact h

/-- An entry found after an event was there before or is one the event installs. -/
theorem mem_step {compile : ReCompile} {w : World} (hk : w.ctl.Keyed) {ev : Event} {d : ℕ}
    {e : FlowEntry} (h : e ∈ (w.step compile ev).tables d) :
    e ∈ w.tables d ∨ Installs w.ctl d ev e := by
  obtain ⟨c', ms, hact, -, -, htables⟩ := step_spec compile hk ev
  rw [htables] at h
  rcases FlowTable.mem_applyAll h with h | ⟨m, hm, he⟩
  · exact Or.inl (mem_of_mem_expired h)
  · exact Or.inr (installs_of_acted hact hm he)

/-- Only a handshake changes the set of connections. -/
theorem datapaths_of_acted {compile : ReCompile} {c c' : FirewallApp} {ev : Event}
    {ms : ℕ → List OFPMsg} (h : Acted compile c ev c' ms) :
    (∃ d, ev = .handshake d ∧ c'.datapaths = c.datapaths.set d ⟨d⟩) ∨
      (∀ d, ev ≠ .handshake d) ∧ c'.datapaths = c.datapaths := by
  cases h with
  | handshake d => exact Or.inl ⟨d, rfl, rfl⟩
  | unheard | ignored | expired => exact Or.inr ⟨by simp, rfl⟩
  | rejected | allowed => exact Or.inr ⟨by simp, by simp⟩
  | served req val c' msgs hval h =>
      refine Or.inr ⟨by simp, ?_⟩
      cases h <;> rfl

/-- Only a handshake connects a switch. -/
theorem datapaths_step (compile : ReCompile) {w : World} (hk : w.ctl.Keyed) (ev : Event) :
    (∃ d, ev = .handshake d ∧ (w.step compile ev).ctl.datapaths = w.ctl.datapaths.set d ⟨d⟩) ∨
      (∀ d, ev ≠ .handshake d) ∧ (w.step compile ev).ctl.datapaths = w.ctl.datapaths := by
  obtain ⟨c', ms, hact, hcore, -, -⟩ := step_spec compile hk ev
  have h : (w.step compile ev).ctl.datapaths = c'.datapaths :=
    congrArg (fun c => c.datapaths) hcore
  rw [h]
  exact datapaths_of_acted hact

/-- A connected switch stays connected. -/
theorem Connected.step {compile : ReCompile} {w : World} (hk : w.ctl.Keyed) {d : ℕ}
    (h : w.Connected d) (ev : Event) : (w.step compile ev).Connected d := by
  rcases datapaths_step compile hk ev with ⟨d', -, hd⟩ | ⟨-, hd⟩
  · rw [Connected, hd, Dict.mem_keys_set]
    exact Or.inr h
  · rw [Connected, hd]
    exact h

/-- Datapaths stay filed under their own numbers. -/
theorem keyed_step {compile : ReCompile} {w : World} (hk : w.ctl.Keyed) (ev : Event) :
    (w.step compile ev).ctl.Keyed := by
  rcases datapaths_step compile hk ev with ⟨d, -, hd⟩ | ⟨-, hd⟩
  · exact keyed_of_datapaths_set hd hk
  · exact keyed_of_datapaths hd hk

/-- A switch hears from the controller only if it is connected or in its handshake. -/
theorem silent_of_acted {compile : ReCompile} {c c' : FirewallApp} {ev : Event}
    {ms : ℕ → List OFPMsg} (h : Acted compile c ev c' ms) {d : ℕ} (hd : d ∉ c.datapaths.keys)
    (hev : ev ≠ .handshake d) : ms d = [] := by
  cases h with
  | handshake d' =>
      refine if_neg fun hdd => hev ?_
      rw [hdd]
  | unheard | ignored | expired => rfl
  | rejected d' now msg result ethPkt hd' =>
      rw [List.eq_nil_iff_forall_not_mem]
      intro m hm
      obtain ⟨hdd, -⟩ := (filtered_filterOf c ⟨d'⟩ now msg ethPkt).sendMsg_mem (mem_sentTo.mp hm)
      obtain rfl : d = d' := hdd
      exact hd hd'
  | allowed d' now msg ethPkt hd' =>
      refine if_neg fun hdd => hd ?_
      rw [hdd]
      exact hd'
  | served => exact if_neg hd

/-- No message of the controller touches the miss entry. -/
theorem spares_miss {compile : ReCompile} {c c' : FirewallApp} {ev : Event}
    {ms : ℕ → List OFPMsg} (h : Acted compile c ev c' ms) {d : ℕ} {m : OFPMsg} (hm : m ∈ ms d) :
    m.Spares missEntry := by
  cases he : m.installs? with
  | none =>
      rcases deletes_of_acted h hm he with ⟨out, rfl⟩ | ⟨mt, rfl, hdel⟩
      · trivial
      · intro hcov
        exact absurd (hcov.ethType_eq hdel.ethType) (by simp)
  | some e =>
      refine OFPMsg.spares_of_installs he ?_
      cases (installs_of_acted h hm he).known with
      | miss => exact Or.inl rfl
      | catchAll | rateDrop | arpDrop | learned | trust => exact Or.inr (by simp)

/-- Only a full flush touches the catch-all entry. -/
theorem spares_catchAll {compile : ReCompile} {c c' : FirewallApp} {ev : Event}
    {ms : ℕ → List OFPMsg} (h : Acted compile c ev c' ms)
    (hflush : ∀ body, ev = .rest (.addDpiPattern body) →
      ¬ (Request.addDpiPattern body).Accepted compile c)
    {d : ℕ} {m : OFPMsg} (hm : m ∈ ms d) : m.Spares catchAllEntry := by
  cases he : m.installs? with
  | none =>
      rcases deletes_of_acted h hm he with ⟨out, rfl⟩ | ⟨mt, rfl, hdel⟩
      · trivial
      · intro hcov
        -- the deletes of the rules name an address or a port, which the catch-all entry does not
        cases hdel with
        | src | dst =>
            simp [OFPMatch.Covers, deleteMod, ipv4SrcMatch, ipv4DstMatch, ipv4Match] at hcov
        | port port proto rule mt hrule hmt =>
            rcases dstPortMatch?_eq_some hmt with ⟨-, rfl⟩ | ⟨-, rfl⟩ <;>
              simp [OFPMatch.Covers, deleteMod, ipv4Match] at hcov
        | all body hok => exact hflush body rfl hok
  | some e =>
      refine OFPMsg.spares_of_installs he ?_
      cases (installs_of_acted h hm he).known with
      | catchAll => exact Or.inl rfl
      | miss | rateDrop | arpDrop | learned | trust => exact Or.inr (by simp)

/-- An entry without timeouts does not expire. -/
theorem mem_expired_of_permanent {w : World} {ev : Event} {d : ℕ} {e : FlowEntry}
    (h : e ∈ w.tables d) (hidle : e.idleTimeout = 0) (hhard : e.hardTimeout = 0) :
    e ∈ w.expired ev d := by
  unfold expired
  split
  · split
    · exact FlowTable.mem_expire_of_permanent h hidle hhard
    · exact h
  · exact h

/-- What an accepted request sends is what `Served` says of a request that is answered. -/
theorem served_of_accepted {compile : ReCompile} {c c' : FirewallApp} {req : Request}
    {ms : ℕ → List OFPMsg} (h : Acted compile c (.rest req) c' ms)
    (hacc : req.Accepted compile c) {d : ℕ} (hd : d ∈ c.datapaths.keys) :
    ∃ response msgs, response.status = 200 ∧ ms d = msgs ∧
      Served compile c req (.ok response) c' msgs := by
  obtain ⟨response, hresponse, hstatus⟩ := hacc
  cases h with
  | served req val c' msgs hval h =>
      rw [hval] at hresponse
      subst hresponse
      exact ⟨response, msgs, hstatus, if_pos hd, h⟩

/-- An accepted signature flushes every connected switch. -/
theorem flush_of_accepted {compile : ReCompile} {c c' : FirewallApp} {body : Except Exc Json}
    {ms : ℕ → List OFPMsg} (h : Acted compile c (.rest (.addDpiPattern body)) c' ms)
    (hacc : (Request.addDpiPattern body).Accepted compile c) {d : ℕ}
    (hd : d ∈ c.datapaths.keys) :
    ms d = [.flowMod (deleteMod ipv4Match), .flowMod catchAllMod] := by
  obtain ⟨response, msgs, hstatus, hms, h⟩ := served_of_accepted h hacc hd
  cases h with
  | refused req val hrefused => exact absurd hstatus (hrefused response rfl)
  | patternAdded => exact hms

/-- An accepted blocked address is flushed from every connected switch, in both directions. -/
theorem flushIp_of_accepted {compile : ReCompile} {c c' : FirewallApp} {ip : String}
    {ms : ℕ → List OFPMsg} (h : Acted compile c (.rest (.addBlockedIp ip)) c' ms)
    (hacc : (Request.addBlockedIp ip).Accepted compile c) {d : ℕ} (hd : d ∈ c.datapaths.keys) :
    ms d = [.flowMod (deleteMod (ipv4SrcMatch ip)), .flowMod (deleteMod (ipv4DstMatch ip))] := by
  obtain ⟨response, msgs, hstatus, hms, h⟩ := served_of_accepted h hacc hd
  cases h with
  | refused req val hrefused => exact absurd hstatus (hrefused response rfl)
  | ipBlocked => exact hms

/-- An accepted blocked port is flushed from every connected switch, as a destination. -/
theorem flushPort_of_accepted {compile : ReCompile} {c c' : FirewallApp} {port proto : String}
    {ms : ℕ → List OFPMsg} (h : Acted compile c (.rest (.addBlockedPort port proto)) c' ms)
    {rule : ℕ × ℕ} (hrule : portRule port proto = .ok rule) {d : ℕ}
    (hd : d ∈ c.datapaths.keys) :
    ∃ m, dstPortMatch? rule.1 rule.2 = some m ∧ ms d = [.flowMod (deleteMod m)] := by
  obtain ⟨response, msgs, hstatus, hms, h⟩ :=
    served_of_accepted h (accepted_addBlockedPort compile c hrule) hd
  cases h with
  | refused req val hrefused => exact absurd hstatus (hrefused response rfl)
  | portBlocked port proto rule' m _ hrule' hm =>
      obtain rfl : rule' = rule := by simpa [hrule'] using hrule
      exact ⟨m, hm, hms⟩

/-- A switch is connected by its own handshake only. -/
theorem handshake_of_connects {compile : ReCompile} {w : World} (hk : w.ctl.Keyed) {ev : Event}
    {d : ℕ} (hold : ¬ w.Connected d) (hnew : (w.step compile ev).Connected d) :
    ev = .handshake d := by
  rcases datapaths_step compile hk ev with ⟨d', rfl, hd⟩ | ⟨-, hd⟩
  · rw [Connected, hd, Dict.mem_keys_set] at hnew
    rw [hnew.resolve_right hold]
  · rw [Connected, hd] at hnew
    exact absurd hnew hold

/-- After its handshake a switch holds both entries of the handshake. -/
theorem mem_step_handshake (compile : ReCompile) (w : World) (d : ℕ) :
    missEntry ∈ (w.step compile (.handshake d)).tables d ∧
      catchAllEntry ∈ (w.step compile (.handshake d)).tables d := by
  have htable : (w.step compile (.handshake d)).tables d =
      ((w.tables d).add missEntry).add catchAllEntry := by
    simp only [step, sends, expired, FirewallApp.handle, run_switchHandshakeHandler,
      sentTo_cons_sendMsg, sentTo_nil, if_true]
    rfl
  rw [htable]
  refine ⟨?_, FlowTable.mem_add_self _ _⟩
  rw [FlowTable.mem_add]
  exact Or.inl ⟨FlowTable.mem_add_self _ _, by simp⟩

/-- Every event keeps the tables sound. -/
theorem sound_step {compile : ReCompile} {w : World} (hw : w.Sound) (ev : Event) :
    (w.step compile ev).Sound := by
  obtain ⟨c', ms, hact, -, -, htables⟩ := step_spec compile hw.keyed ev
  -- known entries, then the two entries of a connected switch, then the switches that are not
  refine ⟨keyed_step hw.keyed ev, ?_, ?_, ?_, ?_⟩
  · intro d e he
    rcases mem_step hw.keyed he with he | he
    · exact hw.known d e he
    · exact he.known
  · intro d hd
    by_cases hold : w.Connected d
    · rw [htables]
      exact FlowTable.mem_applyAll_of_spares
        (mem_expired_of_permanent (hw.miss d hold) rfl rfl) fun m hm => spares_miss hact hm
    · rw [handshake_of_connects hw.keyed hold hd]
      exact (mem_step_handshake compile w d).1
  · intro d hd
    by_cases hold : w.Connected d
    · rw [htables]
      -- only the flush of all flows deletes the catch-all, and it puts it back itself
      by_cases hflush : ∃ body, ev = .rest (.addDpiPattern body) ∧
          (Request.addDpiPattern body).Accepted compile w.ctl
      · obtain ⟨body, rfl, hacc⟩ := hflush
        rw [flush_of_accepted hact hacc hold]
        exact FlowTable.mem_add_self _ _
      · refine FlowTable.mem_applyAll_of_spares
          (mem_expired_of_permanent (hw.catchAll d hold) rfl rfl) fun m hm => ?_
        exact spares_catchAll hact (fun body hev hacc => hflush ⟨body, hev, hacc⟩) hm
    · rw [handshake_of_connects hw.keyed hold hd]
      exact (mem_step_handshake compile w d).2
  · intro d hd
    have hold : ¬ w.Connected d := fun h => hd (h.step hw.keyed ev)
    have hev : ev ≠ .handshake d := by
      rintro rfl
      refine hd ?_
      rcases datapaths_step compile hw.keyed (.handshake d) with
        ⟨d', hdd, h⟩ | ⟨h, -⟩
      · obtain rfl : d = d' := by simpa using hdd
        rw [Connected, h, Dict.mem_keys_set]
        exact Or.inl rfl
      · exact absurd rfl (h d)
    rw [htables, silent_of_acted hact hold hev, FlowTable.applyAll_nil,
      List.eq_nil_iff_forall_not_mem]
    intro e he
    have hmem := mem_of_mem_expired he
    rw [hw.unconnected d hold] at hmem
    exact List.not_mem_nil hmem

/-- Every reachable state has sound tables. -/
theorem sound_run (compile : ReCompile) (dpi : DPIEngine) (evs : List Event) :
    (run compile dpi evs).Sound :=
  runFrom_invariant Sound (fun _ ev hw => sound_step hw ev) (sound_init dpi) evs

/-! ## New rules flush what they block -/

/-- An address that is blocked was blocked before, or no entry that names it is left. -/
theorem Sound.flushed_ip {compile : ReCompile} {w : World} (hw : w.Sound) {ev : Event}
    {ip : String} (h : ip ∈ (w.step compile ev).ctl.blockedIps) :
    ip ∈ w.ctl.blockedIps ∨ ∀ d, ∀ e ∈ (w.step compile ev).tables d,
      ¬ (ipv4SrcMatch ip).Covers e.ofMatch ∧ ¬ (ipv4DstMatch ip).Covers e.ofMatch := by
  obtain ⟨c', ms, hact, hcore, -, htables⟩ := step_spec compile hw.keyed ev
  have hips : (w.step compile ev).ctl.blockedIps = c'.blockedIps :=
    congrArg (fun c => c.blockedIps) hcore
  rw [hips] at h
  cases hact with
  | handshake | unheard | ignored | expired => exact Or.inl h
  | rejected | allowed => exact Or.inl (by simpa using h)
  | served req val c' msgs hval hserved =>
      cases hserved with
      | ipUnblocked => exact Or.inl (Finset.mem_of_mem_erase h)
      | refused | portBlocked | portUnblocked | rateLimit | patternAdded | patternRemoved =>
          exact Or.inl h
      | ipBlocked ip' _ hok =>
          rcases Finset.mem_insert.mp h with rfl | h
          swap
          · exact Or.inl h
          refine Or.inr fun d e he => ?_
          -- the request deletes on every connected switch, and the other tables are empty
          by_cases hd : d ∈ w.ctl.datapaths.keys
          · simp only [htables, if_pos hd] at he
            obtain ⟨he, hdst⟩ := FlowTable.mem_delete_any.mp he
            exact ⟨(FlowTable.mem_delete_any.mp he).2, hdst⟩
          · simp only [htables, if_neg hd] at he
            exact absurd (hw.connected_of_mem he) hd

/-- A port that is blocked was blocked before, or no entry towards it is left. -/
theorem Sound.flushed_port {compile : ReCompile} {w : World} (hw : w.Sound) {ev : Event}
    {rule : ℕ × ℕ} (h : rule ∈ (w.step compile ev).ctl.blockedPorts) :
    rule ∈ w.ctl.blockedPorts ∨ ∀ d, ∀ e ∈ (w.step compile ev).tables d,
      ∀ m, dstPortMatch? rule.1 rule.2 = some m → ¬ m.Covers e.ofMatch := by
  obtain ⟨c', ms, hact, hcore, -, htables⟩ := step_spec compile hw.keyed ev
  have hports : (w.step compile ev).ctl.blockedPorts = c'.blockedPorts :=
    congrArg (fun c => c.blockedPorts) hcore
  rw [hports] at h
  cases hact with
  | handshake | unheard | ignored | expired => exact Or.inl h
  | rejected | allowed => exact Or.inl (by simpa using h)
  | served req val c' msgs hval hserved =>
      cases hserved with
      | portUnblocked => exact Or.inl (Finset.mem_of_mem_erase h)
      | refused | ipBlocked | ipUnblocked | rateLimit | patternAdded | patternRemoved =>
          exact Or.inl h
      | portBlocked port proto rule' m _ hrule hm =>
          rcases Finset.mem_insert.mp h with rfl | h
          swap
          · exact Or.inl h
          refine Or.inr fun d e he m' hm' => ?_
          obtain rfl : m = m' := by simpa [hm] using hm'
          -- the request deletes on every connected switch, and the other tables are empty
          by_cases hd : d ∈ w.ctl.datapaths.keys
          · simp only [htables, if_pos hd] at he
            exact (FlowTable.mem_delete_any.mp he).2
          · simp only [htables, if_neg hd] at he
            exact absurd (hw.connected_of_mem he) hd

end World

end SdnFirewall
